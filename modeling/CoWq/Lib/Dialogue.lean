import Mathlib.Logic.Basic

/-!
# Dialogues

Programs that ask questions and go on with the answers, as trees.

* `Dialogue E A R`: the questions are in `E`, the answers in `A`, the result in `R`.
* `bind`: one program behind the other, with its laws `bind_done` and `bind_assoc`.
* `Goes d log rest`: after the questions and answers of `log`, `d` has become `rest`; `Goes.unique`:
  by the log alone.
-/

namespace CoWq

/-- A program that asks questions `E`, is given answers `A` and comes to an `R`. -/
inductive Dialogue (E A R : Type*)
  | done (r : R)
  | ask (e : E) (next : A → Dialogue E A R)

namespace Dialogue

variable {E A R S T : Type*}

/-- The second program goes on with the result of the first one. -/
def bind : Dialogue E A R → (R → Dialogue E A S) → Dialogue E A S
  | done r, f => f r
  | ask e next, f => ask e fun a => (next a).bind f

@[simp] theorem bind_done (d : Dialogue E A R) : d.bind done = d := by
  induction d with
  | done r => rfl
  | ask e next ih => exact congrArg (ask e) (funext ih)

theorem bind_assoc (d : Dialogue E A R) (f : R → Dialogue E A S) (g : S → Dialogue E A T) :
    (d.bind f).bind g = d.bind fun r => (f r).bind g := by
  induction d with
  | done r => rfl
  | ask e next ih => exact congrArg (ask e) (funext ih)

/-- After the questions and answers of the log, `d` has become the last program. -/
inductive Goes (d : Dialogue E A R) : List (E × A) → Dialogue E A R → Prop
  | start : Goes d [] d
  | answer {log : List (E × A)} {e : E} {next : A → Dialogue E A R} (a : A) :
    Goes d log (ask e next) → Goes d (log ++ [(e, a)]) (next a)

theorem Goes.unique {d rest rest' : Dialogue E A R} {log : List (E × A)} (first : d.Goes log rest)
    (second : d.Goes log rest') : rest = rest' := by
  induction first generalizing rest' with
  | start =>
      generalize whole : ([] : List (E × A)) = log at second
      cases second with
      | start => rfl
      | answer => simp at whole
  | @answer log e next a before ih =>
      generalize whole : log ++ [(e, a)] = longer at second
      cases second with
      | start => simp at whole
      | answer b other =>
          obtain ⟨rfl, same⟩ := List.append_inj' whole rfl
          cases same
          cases ih other
          rfl

end Dialogue

end CoWq
