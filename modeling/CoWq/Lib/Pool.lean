import Mathlib.Data.List.Nodup
import Mathlib.Logic.Function.Basic

/-!
# A pool of resources with a line

The takers `A` share the resources `K`.  A taker that finds none free goes to the end of the line,
and a resource that comes back is handed to the first in the line.

* `Pool.acquire`, `Pool.release`: the two operations.
* `Pool.Sound`: each resource is free or held by one taker, nobody waits while one is free, and
  the line is served in order.
* `Sound.acquire`, `Sound.release`: the operations keep it.
* `idxOf_acquire`, `idxOf_release`: the place of a taker in the line.
-/

namespace CoWq

structure Pool (K A : Type*) where
  free : List K
  line : List A
  hold : A → Option K
  /-- the takers that had to wait, and those the line was left by, in order -/
  came : List A
  served : List A

namespace Pool

variable {K A : Type*} {p : Pool K A} {a b : A} {k : K}

/-- Each resource is free or held once, and the line is the rest of those that came. -/
structure Sound (p : Pool K A) : Prop where
  nodup : p.free.Nodup
  apart : ∀ k ∈ p.free, ∀ a, p.hold a ≠ some k
  single : ∀ k a b, p.hold a = some k → p.hold b = some k → a = b
  covered : ∀ k, k ∈ p.free ∨ ∃ a, p.hold a = some k
  waits : ∀ a ∈ p.line, p.hold a = none
  lined : p.line.Nodup
  busy : p.line ≠ [] → p.free = []
  order : p.came = p.served ++ p.line

variable [DecidableEq A]

def acquire (p : Pool K A) (a : A) : Pool K A :=
  match p.free with
  | k :: free => { p with free, hold := Function.update p.hold a (some k) }
  | [] => { p with line := p.line ++ [a], came := p.came ++ [a] }

def release (p : Pool K A) (a : A) : Pool K A :=
  match p.hold a with
  | none => p
  | some k =>
      match p.line with
      | next :: rest =>
          { p with
            line := rest
            hold := Function.update (Function.update p.hold a none) next (some k)
            served := p.served ++ [next] }
      | [] => { p with free := p.free ++ [k], hold := Function.update p.hold a none }

/-! ## Who holds what -/

theorem update_some_iff {hold : A → Option K} {l : K} :
    Function.update hold a (some k) b = some l ↔ b = a ∧ l = k ∨ b ≠ a ∧ hold b = some l := by
  rcases eq_or_ne b a with rfl | other
  · rw [Function.update_self, Option.some.injEq]
    simp [eq_comm]
  · simp [other]

theorem update_none_iff {hold : A → Option K} {l : K} :
    Function.update hold a none b = some l ↔ b ≠ a ∧ hold b = some l := by
  rcases eq_or_ne b a with rfl | other
  · simp
  · simp [other]

/-- A resource that nobody holds is given to one taker. -/
theorem single_give {hold : A → Option K}
    (single : ∀ k a b, hold a = some k → hold b = some k → a = b) (fresh : ∀ b, hold b ≠ some k)
    (a : A) (l : K) (b c : A) (left : Function.update hold a (some k) b = some l)
    (right : Function.update hold a (some k) c = some l) : b = c := by
  rcases update_some_iff.mp left with ⟨rfl, rfl⟩ | ⟨-, before⟩
  · rcases update_some_iff.mp right with ⟨rfl, -⟩ | ⟨-, holds⟩
    · rfl
    · exact absurd holds (fresh c)
  · rcases update_some_iff.mp right with ⟨-, rfl⟩ | ⟨-, holds⟩
    · exact absurd before (fresh b)
    · exact single l b c before holds

namespace Sound

theorem acquire (sound : p.Sound) (idle : p.hold a = none) (unlisted : a ∉ p.line) :
    (p.acquire a).Sound := by
  unfold Pool.acquire
  split
  next k free found =>
    have nodup := sound.nodup
    rw [found] at nodup
    obtain ⟨taken, nodup⟩ := List.nodup_cons.mp nodup
    have fresh : ∀ b, p.hold b ≠ some k := sound.apart k (found ▸ List.mem_cons_self)
    have empty : p.line = [] := by
      by_contra waiting
      rw [sound.busy waiting] at found
      cases found
    refine ⟨nodup, ?_, single_give sound.single fresh a, ?_, ?_, sound.lined,
      fun waiting => absurd empty waiting, sound.order⟩
    · intro l listed b holds
      rcases update_some_iff.mp holds with ⟨-, rfl⟩ | ⟨-, holds⟩
      · exact taken listed
      · exact sound.apart l (found ▸ List.mem_cons_of_mem _ listed) b holds
    · intro l
      rcases eq_or_ne l k with rfl | other
      · exact .inr ⟨a, Function.update_self ..⟩
      · rcases sound.covered l with listed | ⟨b, holds⟩
        · rw [found] at listed
          exact .inl (List.mem_of_ne_of_mem other listed)
        · right
          have apart : b ≠ a := by
            rintro rfl
            rw [idle] at holds
            cases holds
          exact ⟨b, update_some_iff.mpr (.inr ⟨apart, holds⟩)⟩
    · intro b listed
      rw [show p.line = [] from empty] at listed
      cases listed
  next none =>
    refine ⟨sound.nodup, sound.apart, sound.single, sound.covered, ?_, ?_, fun _ => none, ?_⟩
    · intro b listed
      rcases List.mem_append.mp listed with listed | last
      · exact sound.waits b listed
      · exact List.mem_singleton.mp last ▸ idle
    · apply sound.lined.append (List.nodup_singleton a)
      intro b listed last
      exact unlisted (List.mem_singleton.mp last ▸ listed)
    · simp only [sound.order, List.append_assoc]

theorem release (sound : p.Sound) (held : p.hold a = some k) : (p.release a).Sound := by
  -- behind the return, `k` is held by nobody
  have returned : ∀ b, Function.update p.hold a none b ≠ some k := by
    intro b holds
    obtain ⟨other, holds⟩ := update_none_iff.mp holds
    exact other (sound.single k b a holds held)
  have single : ∀ l b c, Function.update p.hold a none b = some l →
      Function.update p.hold a none c = some l → b = c := by
    intro l b c left right
    exact sound.single l b c (update_none_iff.mp left).2 (update_none_iff.mp right).2
  have kept : ∀ l b, l ≠ k → p.hold b = some l → Function.update p.hold a none b = some l := by
    intro l b other holds
    apply update_none_iff.mpr ⟨_, holds⟩
    rintro rfl
    rw [held] at holds
    exact other (Option.some.inj holds).symm
  unfold Pool.release
  rw [held]
  simp only
  split
  next next rest first =>
    have waits := sound.waits next (first ▸ List.mem_cons_self)
    have none : p.free = [] := sound.busy (by rw [first]; exact List.cons_ne_nil _ _)
    have lined := sound.lined
    rw [first] at lined
    obtain ⟨gone, lined⟩ := List.nodup_cons.mp lined
    refine ⟨sound.nodup, ?_, single_give single returned next, ?_, ?_, lined, fun _ => none, ?_⟩
    · intro l listed
      rw [show p.free = [] from none] at listed
      cases listed
    · intro l
      right
      rcases eq_or_ne l k with rfl | other
      · exact ⟨next, Function.update_self ..⟩
      · rcases sound.covered l with listed | ⟨b, holds⟩
        · rw [none] at listed
          cases listed
        · have behind : b ≠ next := by
            rintro rfl
            rw [waits] at holds
            cases holds
          exact ⟨b, update_some_iff.mpr (.inr ⟨behind, kept l b other holds⟩)⟩
    · intro b listed
      have idle := sound.waits b (first ▸ List.mem_cons_of_mem _ listed)
      apply Option.eq_none_iff_forall_ne_some.mpr
      intro l holds
      rcases update_some_iff.mp holds with ⟨rfl, -⟩ | ⟨-, holds⟩
      · exact gone listed
      · rw [(update_none_iff.mp holds).2] at idle
        cases idle
    · simp only [sound.order, first, List.append_assoc, List.singleton_append]
  next empty =>
    refine ⟨?_, ?_, single, ?_, ?_, sound.lined, fun waiting => absurd empty waiting, sound.order⟩
    · apply sound.nodup.append (List.nodup_singleton k)
      intro l listed last
      exact sound.apart l listed a (List.mem_singleton.mp last ▸ held)
    · intro l listed b holds
      rcases List.mem_append.mp listed with listed | last
      · exact sound.apart l listed b (update_none_iff.mp holds).2
      · exact returned b (List.mem_singleton.mp last ▸ holds)
    · intro l
      rcases eq_or_ne l k with rfl | other
      · exact .inl (List.mem_append_right _ (List.mem_singleton.mpr rfl))
      · rcases sound.covered l with listed | ⟨b, holds⟩
        · exact .inl (List.mem_append_left _ listed)
        · exact .inr ⟨b, kept l b other holds⟩
    · intro b listed
      rw [show p.line = [] from empty] at listed
      cases listed

end Sound

/-! ## The place in the line -/

/-- Nobody overtakes. -/
theorem idxOf_acquire (sound : p.Sound) (listed : a ∈ p.line) :
    a ∈ (p.acquire b).line ∧ (p.acquire b).line.idxOf a = p.line.idxOf a ∧
      (p.acquire b).hold = p.hold := by
  have none : p.free = [] := sound.busy (List.ne_nil_of_mem listed)
  unfold Pool.acquire
  rw [none]
  exact ⟨List.mem_append_left _ listed, List.idxOf_append_of_mem listed, rfl⟩

/-- A resource that comes back is for the first, and the others go up. -/
theorem idxOf_release (held : p.hold b = some k) (listed : a ∈ p.line) :
    (p.release b).hold a = some k ∨
      a ∈ (p.release b).line ∧ (p.release b).line.idxOf a < p.line.idxOf a := by
  unfold Pool.release
  rw [held]
  simp only
  split
  next next rest first =>
    rw [first] at listed
    rcases eq_or_ne a next with rfl | other
    · exact .inl (Function.update_self ..)
    · right
      rcases List.mem_cons.mp listed with rfl | later
      · exact absurd rfl other
      · refine ⟨later, ?_⟩
        rw [first, List.idxOf_cons_ne _ other.symm]
        exact Nat.lt_succ_self _
  next empty =>
    rw [empty] at listed
    cases listed

end Pool

end CoWq
