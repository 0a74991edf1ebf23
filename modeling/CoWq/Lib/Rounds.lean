import Mathlib.Data.List.Basic

/-!
# Loops that call out

A loop whose rounds make one call each, to a peer whose answers are not known beforehand.

* `Round`: what a round does in the state it finds.
* `Round.Each`: what every call of a log meets behind the calls before it.
* `Round.turn`, `Round.play`: the loop against a list of answers.
* `Round.play_invariant`: the induction rule, for the state and the calls so far.
* `Round.Uses`: every call uses up an answer.
* `Round.play_alike`: two loops whose turns are close end alike, with enough fuel for the answers.
-/

namespace CoWq

/-- A round is the last one, or it makes the call `req`; the answer gives the next state and a
verdict. -/
inductive Round (S Req Ans V : Type*)
  | quit
  | call (req : Req) (answer : Ans → S × V)

namespace Round

variable {S T Req Ans V : Type*}

/-- How far a loop has come: the calls it has made, with their answers, and the answers it has
not asked for. -/
structure Outcome (S Req Ans : Type*) where
  finished : Bool
  state : S
  log : List (Req × Ans)
  unused : List Ans

/-! ## Logs -/

/-- Every call of the log meets `P` behind the calls before it. -/
def Each (P : List (Req × Ans) → Req × Ans → Prop) (log : List (Req × Ans)) : Prop :=
  ∀ before call after, log = before ++ call :: after → P before call

theorem Each.nil {P : List (Req × Ans) → Req × Ans → Prop} : Each P [] := by
  intro before call after split
  cases before <;> cases split

theorem Each.append {P : List (Req × Ans) → Req × Ans → Prop} {log : List (Req × Ans)}
    {call : Req × Ans} (each : Each P log) (next : P log call) : Each P (log ++ [call]) := by
  intro before call' after split
  rcases List.append_eq_append_iff.mp split with ⟨more, rfl, rest⟩ | ⟨more, rfl, rest⟩
  · -- the new call is the one looked at
    cases more with
    | nil =>
        obtain ⟨rfl, -⟩ := List.cons.inj rest
        rwa [List.append_nil]
    | cons x more =>
        have size := congrArg List.length rest
        simp at size
  · cases more with
    | nil =>
        obtain ⟨rfl, -⟩ := List.cons.inj rest
        rwa [List.append_nil] at next
    | cons x more =>
        obtain ⟨rfl, -⟩ := List.cons.inj rest
        exact each before _ more rfl

/-! ## Runs -/

section Play

variable (round : S → Round S Req Ans V) (reply : Req → List Ans → Option (Ans × List Ans))
  (stop : V → Bool)

/-- One round, if its call is answered. -/
def turn (s : S) (answers : List Ans) : Option (Outcome S Req Ans) :=
  match round s with
  | .quit => some ⟨true, s, [], answers⟩
  | .call req answer =>
      match reply req answers with
      | none => none
      | some (a, rest) => some ⟨stop (answer a).2, (answer a).1, [(req, a)], rest⟩

/-- Rounds until one is the last, or until a call remains unanswered. -/
def play : Nat → S → List Ans → Outcome S Req Ans
  | 0, s, answers => ⟨false, s, [], answers⟩
  | fuel + 1, s, answers =>
      match turn round reply stop s answers with
      | none => ⟨false, s, [], answers⟩
      | some now =>
          if now.finished then now
          else
            let later := play fuel now.state now.unused
            { later with log := now.log ++ later.log }

end Play

variable {round : S → Round S Req Ans V} {reply : Req → List Ans → Option (Ans × List Ans)}
  {stop : V → Bool} {s : S} {answers rest : List Ans} {req : Req} {a : Ans}
  {answer : Ans → S × V}

theorem turn_quit (last : round s = .quit) :
    turn round reply stop s answers = some ⟨true, s, [], answers⟩ := by
  rw [turn, last]

theorem turn_call (calls : round s = .call req answer)
    (answered : reply req answers = some (a, rest)) :
    turn round reply stop s answers =
      some ⟨stop (answer a).2, (answer a).1, [(req, a)], rest⟩ := by
  simp only [turn, calls, answered]

theorem turn_unanswered (calls : round s = .call req answer)
    (unanswered : reply req answers = none) : turn round reply stop s answers = none := by
  simp only [turn, calls, unanswered]

/-- What a turn has done: nothing, or a call that was answered. -/
theorem turn_cases {now : Outcome S Req Ans}
    (run : turn round reply stop s answers = some now) :
    (round s = .quit ∧ now = ⟨true, s, [], answers⟩) ∨
      ∃ req answer a rest, round s = .call req answer ∧ reply req answers = some (a, rest) ∧
        now = ⟨stop (answer a).2, (answer a).1, [(req, a)], rest⟩ := by
  cases here : round s with
  | quit =>
      rw [turn_quit here] at run
      exact .inl ⟨rfl, (Option.some.inj run).symm⟩
  | call req answer =>
      cases answered : reply req answers with
      | none =>
          rw [turn_unanswered here answered] at run
          cases run
      | some both =>
          rw [turn_call here answered] at run
          exact .inr ⟨req, answer, both.1, both.2, rfl, answered, (Option.some.inj run).symm⟩

/-- The induction rule: `going` relates the state to the calls so far as long as the loop goes on,
`done` once it is finished. -/
theorem play_invariant {going done : S → List (Req × Ans) → Prop}
    (leave : ∀ {s log}, going s log → round s = .quit → done s log)
    (call : ∀ {s log req answer a answers rest}, going s log → round s = .call req answer →
      reply req answers = some (a, rest) →
      if stop (answer a).2 then done (answer a).1 (log ++ [(req, a)])
      else going (answer a).1 (log ++ [(req, a)])) :
    ∀ (fuel : Nat) {s : S} {log : List (Req × Ans)} (answers : List Ans), going s log →
      let o := play round reply stop fuel s answers
      if o.finished then done o.state (log ++ o.log) else going o.state (log ++ o.log) := by
  intro fuel
  induction fuel with
  | zero =>
      intro s log answers here
      simpa [play] using here
  | succ fuel ih =>
      intro s log answers here
      rw [play]
      cases now : turn round reply stop s answers with
      | none => simpa using here
      | some now' =>
          rcases turn_cases now with ⟨quit, rfl⟩ | ⟨req, answer, a, rest, calls, answered, rfl⟩
          · simpa using leave here quit
          · have next := call here calls answered
            dsimp only
            by_cases last : stop (answer a).2 = true
            · rw [if_pos last] at next
              rw [if_pos last, if_pos last]
              exact next
            · rw [if_neg last] at next
              rw [if_neg last]
              have later := ih rest next
              simp only [List.append_assoc] at later
              exact later

/-- A call whose answer does not end the loop comes first in the log. -/
theorem play_call {fuel : Nat} (calls : round s = .call req answer)
    (answered : reply req answers = some (a, rest)) (more : stop (answer a).2 = false) :
    (play round reply stop (fuel + 1) s answers).log =
      (req, a) :: (play round reply stop fuel (answer a).1 rest).log := by
  rw [play, turn_call calls answered]
  simp only [more, Bool.false_eq_true, if_false, List.singleton_append]

/-- Every call but one that ends the loop uses up an answer. -/
def Uses (round : S → Round S Req Ans V) (reply : Req → List Ans → Option (Ans × List Ans))
    (stop : V → Bool) : Prop :=
  ∀ {s req answer a answers rest}, round s = .call req answer →
    reply req answers = some (a, rest) → stop (answer a).2 = false → rest.length < answers.length

theorem turn_uses {now : Outcome S Req Ans} (uses : Uses round reply stop)
    (run : turn round reply stop s answers = some now) (more : now.finished = false) :
    now.unused.length < answers.length := by
  rcases turn_cases run with ⟨-, rfl⟩ | ⟨req, answer, a, rest, calls, answered, rfl⟩
  · cases more
  · exact uses calls answered more

/-- Two outcomes of which an observer of the answers sees the same. -/
structure Outcome.Alike {Req' : Type*} (sim : S → T → Prop) (o : Outcome S Req Ans)
    (o' : Outcome T Req' Ans) : Prop where
  finished : o.finished = o'.finished
  unused : o.unused = o'.unused
  state : sim o.state o'.state

/-- The turns of two loops agree, or the second loop is over and the first one will be with its
next turn, for which it needs no answer. -/
structure Outcome.Close {Req' : Type*} (round : S → Round S Req Ans V)
    (reply : Req → List Ans → Option (Ans × List Ans)) (stop : V → Bool) (sim : S → T → Prop)
    (o : Outcome S Req Ans) (o' : Outcome T Req' Ans) : Prop where
  unused : o.unused = o'.unused
  state : sim o.state o'.state
  finished : o.finished = o'.finished ∨
    o.finished = false ∧ o'.finished = true ∧ ∃ last,
      turn round reply stop o.state o.unused = some last ∧ Outcome.Alike sim last o'

/-- Two loops with related states whose turns are both unanswered or close end alike. -/
theorem play_alike {Req' V' : Type*} {round' : T → Round T Req' Ans V'}
    {reply' : Req' → List Ans → Option (Ans × List Ans)} {stop' : V' → Bool}
    {sim : S → T → Prop} (uses : Uses round reply stop)
    (close : ∀ {s t} answers, sim s t → Option.Rel (Outcome.Close round reply stop sim)
      (turn round reply stop s answers) (turn round' reply' stop' t answers)) :
    ∀ {fuel : Nat} {s : S} {t : T} {answers : List Ans}, sim s t → answers.length < fuel →
      Outcome.Alike sim (play round reply stop fuel s answers)
        (play round' reply' stop' fuel t answers) := by
  intro fuel
  induction fuel with
  | zero => exact fun _ few => absurd few (Nat.not_lt_zero _)
  | succ fuel ih =>
      intro s t answers here few
      have both := close answers here
      rw [play, play]
      cases now : turn round reply stop s answers with
      | none =>
          rw [now] at both
          cases now' : turn round' reply' stop' t answers with
          | none => exact ⟨rfl, rfl, here⟩
          | some o' =>
              rw [now'] at both
              cases both
      | some o =>
          rw [now] at both
          cases now' : turn round' reply' stop' t answers with
          | none =>
              rw [now'] at both
              cases both
          | some o' =>
              rw [now'] at both
              obtain ⟨unused, state, finished⟩ : Outcome.Close round reply stop sim o o' := by
                cases both with
                | some close => exact close
              dsimp only
              rcases finished with same | ⟨more, last, final, step, alike⟩
              · rw [← same]
                by_cases last : o.finished = true
                · rw [if_pos last, if_pos last]
                  exact ⟨same, unused, state⟩
                · rw [if_neg last, if_neg last]
                  have fewer := turn_uses uses now (Bool.eq_false_iff.mpr last)
                  have short : o.unused.length < fuel := by omega
                  obtain ⟨finished, unused', state'⟩ := ih state short
                  rw [← unused]
                  exact ⟨finished, unused', state'⟩
              · -- the first loop takes its last turn now
                have fewer := turn_uses uses now more
                obtain ⟨k, rfl⟩ : ∃ k, fuel = k + 1 := ⟨fuel - 1, by omega⟩
                have quit : final.finished = true := alike.finished.trans last
                rw [if_neg (by simp [more]), if_pos last, play, step]
                simp only [quit, if_true]
                exact ⟨last.symm, alike.unused, alike.state⟩

end Round

end CoWq
