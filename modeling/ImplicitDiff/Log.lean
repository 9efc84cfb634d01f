import ImplicitDiff.Journal
import ImplicitDiff.Text

/-! # Reading a journal

Two readings of a journal can be shown: diagnostic lines, which tell how a solve went, and the
messages that the equations wrote. An event belongs to at most one of them.
-/

namespace ImplicitDiff

variable {F : Type}

/-- A number that is known to be one, as it stands in a log line. -/
private def known [Decimal.Decimals F] (x : F) : String := "Some(" ++ taggedText x ++ ")"

/-- The diagnostic line of an event, if it has one; its level stands in front. -/
def Event.line? [Decimal.Decimals F] : Event F → Option String
  | .stepped norm ratio radius kept failures =>
    some ("TRACE hybrid iteration: |f| = " ++ known norm ++ ", ratio = " ++ known ratio ++
      ", delta = " ++ known radius ++ s!", accepted = {kept}, failures = {failures}")
  | .stopped iterations evaluations jacobians reason =>
    some (s!"DEBUG hybrid solver stopped after {iterations} iterations " ++
      s!"({evaluations} evaluations, {jacobians} jacobians): " ++ reason.text)
  | .overspent evaluations budget reason =>
    some (s!"WARN algebra solver used {evaluations} of {budget} evaluations (" ++ reason.text ++
      ")")
  | .rejected norm reason =>
    some ("WARN rejecting candidate root with residual norm " ++ taggedText norm ++
      " (" ++ reason.text ++ ")")
  | .accepted norm evaluations jacobians =>
    some ("DEBUG algebra solver accepted root: |f| = " ++ taggedText norm ++
      s!", {evaluations} evaluations, {jacobians} jacobians")
  | .differentiated unknowns parameters =>
    some s!"DEBUG computed {unknowns}x{parameters} solution sensitivity"
  | .evaluated _ | .linearized _ | .called _ _ | .wrote _ => none

/-- The text of a message, with each number shown by `text`. -/
def Message.text (text : Dual F → String) (message : Message F) : String :=
  String.join (message.map fun | .words s => s | .number x => text x)

/-- The message of an event, if it has one. -/
def Event.message? : Event F → Option (Message F)
  | .wrote message => some message
  | _ => none

/-- The diagnostic lines of a journal. -/
def Journal.lines [Decimal.Decimals F] (journal : Journal F) : List String :=
  journal.toList.filterMap Event.line?

/-- What the equations wrote, in order. -/
def Journal.written (journal : Journal F) : List (Message F) :=
  journal.toList.filterMap Event.message?

/-- The messages of a journal, with each number shown by `text`. -/
def Journal.messages (text : Dual F → String) (journal : Journal F) : List String :=
  (Journal.written journal).map (Message.text text)

/-- How often a residual was asked for. -/
def Journal.evaluations (journal : Journal F) : Nat :=
  journal.countP fun | .evaluated _ => true | _ => false

/-- How often a Jacobian was asked for. -/
def Journal.linearizations (journal : Journal F) : Nat :=
  journal.countP fun | .linearized _ => true | _ => false

end ImplicitDiff
