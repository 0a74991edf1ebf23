import CoWq.Sync.Timer

/-!
# The timer heap keeps its representation

Each heap function is related to its pure counterpart of `PairingHeapImp.Heap`:
`heap_meld` to `merge`, `two_pass_merge` and `delete_min` to `combine`, and the
removal in `cancel` to `cut` followed by a `merge`.  The writes of each function
stay inside the forests it is given, which is what lets the specifications
compose.
-/

namespace CoWq.Timer

open Batteries.PairingHeapImp LinkedHeap Links Workqueue

variable {P Q : Type*} [DecidableEq P]

/-- The order the heap functions compare by. -/
def before (expire : P → Int) (a b : P) : Bool := decide (expire a ≤ expire b)

instance (expire : P → Int) : Batteries.TotalBLE (before expire) where
  total {a b} := by simpa [before] using le_total (expire a) (expire b)

variable (expire : P → Int) {l : P → Links P}

/-! ## Melding and merging -/

/-- The links `heap_meld` writes when `a` stays the root. -/
theorem rep_attach {a b : P} {c d : Heap P} {l' : P → Links P}
    (hl : l' = setParent (setChild (setSibling l b (l a).child) a (some b)) b (some a))
    (nodup : (a :: nodes c ++ b :: nodes d).Nodup) (asib : (l a).sibling = none)
    (ac : Rep l (some a) c (l a).child) (bd : Rep l (some b) d (l b).child) :
    RepRoot l' (.node a (.node b d c) .nil) (some a) ∧
      ∀ x, x ≠ a → x ≠ b → l' x = l x := by
  have frame : ∀ x, x ≠ a → x ≠ b → l' x = l x := by
    intro x xa xb
    rw [hl, setParent_of_ne xb, setChild_of_ne xa, setSibling_of_ne xb]
  simp only [List.cons_append, List.nodup_cons, List.mem_append, List.mem_cons, not_or,
    List.nodup_append] at nodup
  obtain ⟨⟨anc, ab, and'⟩, -, ⟨bnd, -⟩, apart⟩ := nodup
  have bnc : b ∉ nodes c := fun mem => apart b mem b (.inl rfl) rfl
  have atA : l' a = { child := some b, sibling := none, parent := (l a).parent } := by
    rw [hl, setParent_of_ne ab, setChild_self, setSibling_of_ne ab, ← asib]
  have atB : l' b = { child := (l b).child, sibling := (l a).child, parent := some a } := by
    rw [hl, setParent_self, setChild_of_ne (Ne.symm ab), setSibling_self]
  refine ⟨⟨rfl, rfl, by rw [atA], ?_⟩, frame⟩
  rw [atA]
  refine ⟨rfl, by rw [atB], ?_, ?_⟩
  · rw [atB]
    exact bd.frame fun x mem =>
      frame x (fun same => and' (same ▸ mem)) (fun same => bnd (same ▸ mem))
  · rw [atB]
    exact ac.frame fun x mem =>
      frame x (fun same => anc (same ▸ mem)) (fun same => bnc (same ▸ mem))

theorem heapMeld_spec {ha hb : Heap P} {a b : Option P} (ra : RepRoot l ha a)
    (rb : RepRoot l hb b) (nodup : (nodes ha ++ nodes hb).Nodup) :
    RepRoot (heapMeld expire l a b).1 (ha.merge (before expire) hb) (heapMeld expire l a b).2 ∧
      ∀ x, x ∉ nodes ha → x ∉ nodes hb → (heapMeld expire l a b).1 x = l x := by
  cases ha with
  | nil =>
      cases ra
      refine ⟨?_, fun _ _ _ => rfl⟩
      cases hb with
      | nil => simpa [heapMeld, Heap.merge] using rb
      | node b d t =>
          obtain ⟨rfl, rfl, sib, rep⟩ := rb
          exact ⟨rfl, rfl, sib, rep⟩
  | node a c s =>
      obtain ⟨rfl, rfl, asib, ac⟩ := ra
      cases hb with
      | nil =>
          cases rb
          exact ⟨⟨rfl, rfl, asib, ac⟩, fun _ _ _ => rfl⟩
      | node b d t =>
          obtain ⟨rfl, rfl, bsib, bd⟩ := rb
          simp only [nodes_node, nodes_nil, List.append_nil] at nodup ⊢
          by_cases order : expire a ≤ expire b
          · obtain ⟨rep, frame⟩ := rep_attach rfl nodup asib ac bd
            have le : before expire a b = true := decide_eq_true order
            simp only [heapMeld, if_pos order, Heap.merge, le, if_true]
            refine ⟨rep, fun x xa xb => frame x ?_ ?_⟩
            · exact fun same => xa (same ▸ List.mem_cons_self)
            · exact fun same => xb (same ▸ List.mem_cons_self)
          · obtain ⟨rep, frame⟩ := rep_attach rfl (List.perm_append_comm.nodup_iff.mp nodup)
              bsib bd ac
            have le : before expire a b = false := decide_eq_false order
            simp only [heapMeld, if_neg order, Heap.merge, le, Bool.false_eq_true, if_false]
            refine ⟨rep, fun x xa xb => frame x ?_ ?_⟩
            · exact fun same => xb (same ▸ List.mem_cons_self)
            · exact fun same => xa (same ▸ List.mem_cons_self)

/-- The four writes that turn the first two siblings into trees of their own. -/
theorem rep_detach {a b : P} {c d s : Heap P} {par : Option P} {l' : P → Links P}
    (hl : l' = setParent (setParent (setSibling (setSibling l a none) b none) a none) b none)
    (nodup : (nodes (.node a c (.node b d s))).Nodup)
    (rep : Rep l par (.node a c (.node b d s)) (some a)) :
    RepRoot l' (.node a c .nil) (some a) ∧ RepRoot l' (.node b d .nil) (some b) ∧
      Rep l' par s (l b).sibling ∧ ∀ x, x ≠ a → x ≠ b → l' x = l x := by
  obtain ⟨-, -, ac, sib, -, bd, rest⟩ := rep
  have frame : ∀ x, x ≠ a → x ≠ b → l' x = l x := by
    intro x xa xb
    rw [hl, setParent_of_ne xb, setParent_of_ne xa, setSibling_of_ne xb, setSibling_of_ne xa]
  simp only [nodes_node, List.nodup_cons, List.mem_append, List.mem_cons, not_or,
    List.nodup_append] at nodup
  obtain ⟨⟨anc, ab, and', ans⟩, -, ⟨⟨bnd, bns⟩, -, -, -⟩, apart⟩ := nodup
  have bnc : b ∉ nodes c := fun mem => apart b mem b (.inl rfl) rfl
  have atA : l' a = { child := (l a).child, sibling := none, parent := none } := by
    rw [hl, setParent_of_ne ab, setParent_self, setSibling_of_ne ab, setSibling_self]
  have atB : l' b = { child := (l b).child, sibling := none, parent := none } := by
    rw [hl, setParent_self, setParent_of_ne (Ne.symm ab), setSibling_self,
      setSibling_of_ne (Ne.symm ab)]
  refine ⟨⟨rfl, rfl, by rw [atA], ?_⟩, ⟨rfl, rfl, by rw [atB], ?_⟩, ?_, frame⟩
  · rw [atA]
    exact ac.frame fun x mem =>
      frame x (fun same => anc (same ▸ mem)) (fun same => bnc (same ▸ mem))
  · rw [atB]
    exact bd.frame fun x mem =>
      frame x (fun same => and' (same ▸ mem)) (fun same => bnd (same ▸ mem))
  · exact rest.frame fun x mem =>
      frame x (fun same => ans (same ▸ mem)) (fun same => bns (same ▸ mem))

/-- `two_pass_merge` is `combine`, whatever parent the siblings name; the parent
of the resulting root is left as it happens to be. -/
theorem twoPassMerge_spec : ∀ (h : Heap P) {par : Option P} {l : P → Links P} {p : Option P}
    {fuel : Nat}, Rep l par h p → (nodes h).Nodup → (nodes h).length < fuel →
    ∃ l' r, twoPassMerge expire fuel l p = some (l', r) ∧
      RepRoot l' (h.combine (before expire)) r ∧ ∀ x, x ∉ nodes h → l' x = l x
  | .nil, par, l, p, fuel + 1, rep, _, _ => by
      cases rep
      exact ⟨l, none, rfl, by simp [Heap.combine, RepRoot], fun _ _ => rfl⟩
  | .node a c .nil, par, l, p, fuel + 1, rep, _, _ => by
      have root := rep.toRoot
      obtain ⟨rfl, -, -, sib⟩ := rep
      refine ⟨l, some a, ?_, by simpa [Heap.combine] using root, fun _ _ => rfl⟩
      have none' : (l a).sibling = none := sib
      simp only [twoPassMerge, none']
  | .node a c (.node b d s), par, l, p, fuel + 1, rep, nodup, size => by
      have top : p = some a := rep.1
      subst top
      have sib : (l a).sibling = some b := rep.2.2.2.1
      obtain ⟨ra, rb, rest, frame⟩ := rep_detach rfl nodup rep
      generalize hl : setParent (setParent (setSibling (setSibling l a none) b none) a none)
        b none = l₁ at ra rb rest frame
      -- the nodes of the two trees and of the rest are pairwise apart
      have split : (nodes (.node a c (.node b d s))).Perm
          ((a :: nodes c ++ b :: nodes d) ++ nodes s) := by simp
      have nodup' := split.nodup_iff.mp nodup
      obtain ⟨nab, ns, apart⟩ := List.nodup_append.mp nodup'
      obtain ⟨rab, frame₁⟩ := heapMeld_spec expire ra rb (by simpa using nab)
      generalize hm : heapMeld expire l₁ (some a) (some b) = m at rab frame₁
      obtain ⟨l₂, root1⟩ := m
      have outer : ∀ x, x ∉ a :: nodes c ++ b :: nodes d → l₂ x = l₁ x := by
        intro x out
        simp only [List.cons_append, List.mem_cons, List.mem_append, not_or] at out
        exact frame₁ x (by simp [out.1, out.2.1]) (by simp [out.2.2.1, out.2.2.2])
      have rest₂ : Rep l₂ par s (l b).sibling :=
        rest.frame fun x mem => outer x fun mem' => apart x mem' x mem rfl
      have size' : (nodes s).length < fuel := by
        have := split.length_eq
        simp only [List.length_append, List.length_cons] at this size
        omega
      obtain ⟨l₃, root2, run, rs, frame₂⟩ := twoPassMerge_spec s rest₂ ns size'
      have perm := nodes_merge_node (before expire) a b c d .nil .nil
      have rab₃ : RepRoot l₃ ((Heap.node a c .nil).merge (before expire) (.node b d .nil))
          root1 :=
        rab.frame fun x mem => frame₂ x fun mem' => apart x (perm.mem_iff.mp mem) x mem' rfl
      have permS := nodes_combine (before expire) s
      have nodup₃ : (nodes ((Heap.node a c .nil).merge (before expire) (.node b d .nil)) ++
          nodes (s.combine (before expire))).Nodup :=
        (perm.append permS).nodup_iff.mpr nodup'
      obtain ⟨res, frame₃⟩ := heapMeld_spec expire rab₃ rs nodup₃
      refine ⟨(heapMeld expire l₃ root1 root2).1, (heapMeld expire l₃ root1 root2).2, ?_, ?_, ?_⟩
      · simp only [twoPassMerge, sib, hl, hm, run]
      · simpa [Heap.combine, Heap.merge] using res
      · intro x out
        have out' : x ∉ (a :: nodes c ++ b :: nodes d) ++ nodes s :=
          fun mem => out (split.mem_iff.mpr mem)
        have outs := List.mem_append.not.mp out'
        rw [not_or] at outs
        rw [frame₃ x (fun mem => outs.1 (perm.mem_iff.mp mem))
          (fun mem => outs.2 (permS.mem_iff.mp mem)), frame₂ x outs.2, outer x outs.1]
        simp only [List.cons_append, List.mem_cons, List.mem_append, not_or] at outs
        exact frame x outs.1.1 outs.1.2.2.1

/-- The heap stored from a root link: one tree, no node twice, and a root
without parent. -/
structure Stored (l : P → Links P) (h : Heap P) (root : Option P) : Prop where
  rep : RepRoot l h root
  top : ∀ r, root = some r → (l r).parent = none
  nodup : (nodes h).Nodup

omit [DecidableEq P] in
theorem Stored.frame {h : Heap P} {root : Option P} {l' : P → Links P} (st : Stored l h root)
    (same : ∀ x ∈ nodes h, l' x = l x) : Stored l' h root := by
  refine ⟨st.rep.frame same, fun r hr => ?_, st.nodup⟩
  have mem : r ∈ nodes h := by
    cases h with
    | nil => exact absurd (st.rep.symm.trans hr) (by simp)
    | node a c s => exact Option.some.inj (hr.symm.trans st.rep.1) ▸ List.mem_cons_self
  rw [same r mem]
  exact st.top r hr

theorem RepRoot.orphan {h : Heap P} {root : Option P} (rep : RepRoot l h root)
    (nodup : (nodes h).Nodup) :
    Stored (orphan l root) h root ∧ ∀ x, x ∉ nodes h → orphan l root x = l x := by
  cases h with
  | nil =>
      cases rep
      exact ⟨⟨rfl, fun r hr => (nomatch hr), nodup⟩, fun _ _ => rfl⟩
  | node a c s =>
      obtain ⟨rfl, rfl, sib, ac⟩ := rep
      have frame : ∀ x, x ≠ a → Timer.orphan l (some a) x = l x :=
        fun x ne => setParent_of_ne ne
      have atA : Timer.orphan l (some a) a = { l a with parent := none } := setParent_self
      refine ⟨⟨⟨rfl, rfl, by rw [atA]; exact sib, ?_⟩, ?_, nodup⟩, ?_⟩
      · rw [atA]
        refine ac.frame fun x mem => frame x fun same => ?_
        exact (List.nodup_cons.mp nodup).1 (same ▸ by simpa using mem)
      · intro r hr
        cases hr
        rw [atA]
      · exact fun x out => frame x fun same => out (same ▸ List.mem_cons_self)

/-- `delete_min` stores the combination of the root's children. -/
theorem deleteMin_spec {c : Heap P} {root : P} {fuel : Nat}
    (rep : Rep l (some root) c (l root).child) (nodup : (nodes c).Nodup)
    (size : (nodes c).length < fuel) :
    ∃ l' nr, deleteMin expire fuel l root = some (l', nr) ∧
      Stored l' (c.combine (before expire)) nr ∧ ∀ x, x ∉ nodes c → l' x = l x := by
  obtain ⟨l₁, nr, run, res, frame⟩ := twoPassMerge_spec expire c rep nodup size
  have perm := nodes_combine (before expire) c
  obtain ⟨stored, frame'⟩ := RepRoot.orphan res (perm.nodup_iff.mpr nodup)
  refine ⟨orphan l₁ nr, nr, ?_, stored, fun x out => ?_⟩
  · rw [deleteMin, run]
    cases nr <;> rfl
  · rw [frame' x fun mem => out (perm.mem_iff.mp mem), frame x out]

/-! ## Taking an inner node out -/

/-- The walk past the first sibling `a`: the node is found behind `a` and only
sibling links of nodes that stay are written. -/
theorem unlink_after (parent : P) {n : P} : ∀ (s : Heap P) {a : P} {c : Heap P} {par : Option P}
    {l : P → Links P} {fuel : Nat}, Rep l par (.node a c s) (some a) →
    (nodes (.node a c s)).Nodup → n ∈ roots s → (nodes s).length < fuel →
    ∃ l', unlink parent n fuel l (some a) (l a).sibling = some l' ∧
      Rep l' par (.node a c (cut n s)) (some a) ∧
      ∀ x, x ∉ nodes (.node a c (cut n s)) → l' x = l x
  | .node b d t, a, c, par, l, fuel + 1, rep, nodup, mem, size => by
      obtain ⟨-, hpar, ac, sib, bpar, bd, bt⟩ := rep
      have nodup' := nodup
      simp only [nodes_node, List.nodup_cons, List.mem_append, List.mem_cons, not_or,
        List.nodup_append] at nodup'
      obtain ⟨⟨anc, ab, and', ant⟩, -, ⟨⟨bnd, bnt⟩, -, -, -⟩, apart⟩ := nodup'
      by_cases found : b = n
      · subst found
        refine ⟨setSibling l a (l b).sibling, by simp [unlink, sib], ?_, ?_⟩
        · have same : ∀ x, x ≠ a → setSibling l a (l b).sibling x = l x :=
            fun x ne => setSibling_of_ne ne
          refine ⟨rfl, by simpa using hpar, ?_, ?_⟩
          · simpa using ac.frame fun x mem => same x fun e => anc (e ▸ mem)
          · simpa [cut] using bt.frame fun x mem => same x fun e => ant (e ▸ mem)
        · exact fun x out => setSibling_of_ne fun e => out (e ▸ List.mem_cons_self)
      · have later : n ∈ roots t := by
          rcases List.mem_cons.mp mem with e | later
          · exact (found e.symm).elim
          · exact later
        have inner : (nodes (.node b d t)).Nodup :=
          (List.nodup_append.mp (List.nodup_cons.mp nodup).2).2.1
        have size' : (nodes t).length < fuel := by
          simp only [nodes_node, List.length_cons, List.length_append] at size
          omega
        obtain ⟨l', run, rep', frame⟩ :=
          unlink_after parent t ⟨rfl, bpar, bd, bt⟩ inner later size'
        have keep : ∀ x, x ∉ nodes (.node b d t) → l' x = l x := by
          intro x out
          refine frame x fun mem' => out ?_
          simp only [nodes_node, List.mem_cons, List.mem_append] at mem' ⊢
          exact mem'.imp id (Or.imp id mem_cut)
        have atA : l' a = l a := keep a (by simp [ab, and', ant])
        have nd : n ∉ nodes d := fun inD => by
          simp only [nodes_node, List.nodup_cons, List.nodup_append] at inner
          exact inner.2.2.2 n inD n (roots_subset later) rfl
        refine ⟨l', by simp [unlink, sib, found, run], ?_, ?_⟩
        · refine ⟨rfl, by rw [atA]; exact hpar, ?_, ?_⟩
          · rw [atA]
            refine ac.frame fun x mem' => keep x fun mem'' => ?_
            simp only [nodes_node, List.mem_cons, List.mem_append] at mem''
            exact apart x mem' x mem'' rfl
          · rw [atA, sib]
            simpa [cut, found, cut_of_not_mem nd] using rep'
        · intro x out
          refine frame x fun mem' => out ?_
          simp only [cut, if_neg found, cut_of_not_mem nd, nodes_node, List.mem_cons,
            List.mem_append] at mem' ⊢
          exact .inr (.inr mem')

/-- The walk of `cancel` over the children `c` of `q`. -/
theorem unlink_child {q n : P} {c : Heap P} {fuel : Nat}
    (rep : Rep l (some q) c (l q).child) (nodup : (q :: nodes c).Nodup) (mem : n ∈ roots c)
    (size : (nodes c).length < fuel) :
    ∃ l', unlink q n fuel l none (l q).child = some l' ∧
      Rep l' (some q) (cut n c) (l' q).child ∧ (l' q).sibling = (l q).sibling ∧
      (l' q).parent = (l q).parent ∧ ∀ x, x ∉ q :: nodes (cut n c) → l' x = l x := by
  cases c with
  | nil => cases mem
  | node a d s =>
      obtain ⟨fuel, rfl⟩ : ∃ k, fuel = k + 1 := ⟨fuel - 1, by omega⟩
      have top := rep.1
      obtain ⟨qout, inner⟩ := List.nodup_cons.mp nodup
      simp only [nodes_node, List.mem_cons, List.mem_append, not_or] at qout
      by_cases found : a = n
      · subst found
        have same : ∀ x, x ≠ q → setChild l q (l a).sibling x = l x :=
          fun x ne => setChild_of_ne ne
        refine ⟨setChild l q (l a).sibling, by simp [unlink, top], ?_, by simp, by simp, ?_⟩
        · simpa [cut] using rep.2.2.2.frame fun x mem => same x fun e => qout.2.2 (e ▸ mem)
        · exact fun x out => same x fun e => out (e ▸ List.mem_cons_self)
      · have later : n ∈ roots s := by
          rcases List.mem_cons.mp mem with e | later
          · exact (found e.symm).elim
          · exact later
        have size' : (nodes s).length < fuel := by
          simp only [nodes_node, List.length_cons, List.length_append] at size
          omega
        obtain ⟨l', run, rep', frame⟩ :=
          unlink_after q s (top ▸ rep) inner later size'
        have deep : ∀ x, x ∈ nodes (Heap.node a d (cut n s)) → x ∈ nodes (.node a d s) := by
          intro x
          simp only [nodes_node, List.mem_cons, List.mem_append]
          exact Or.imp id (Or.imp id mem_cut)
        have atQ : l' q = l q := frame q fun mem' => by
          simpa [qout.1, qout.2.1, qout.2.2] using deep q mem'
        have nd : n ∉ nodes d := fun inD => by
          simp only [nodes_node, List.nodup_cons, List.nodup_append] at inner
          exact inner.2.2.2 n inD n (roots_subset later) rfl
        refine ⟨l', by simp [unlink, top, found, run], ?_, by rw [atQ], by rw [atQ], ?_⟩
        · rw [atQ, top]
          simpa [cut, found, cut_of_not_mem nd] using rep'
        · intro x out
          refine frame x fun mem' => out (List.mem_cons_of_mem _ ?_)
          simpa [cut, found, cut_of_not_mem nd] using mem'

/-- The walk of `cancel` for a node below the top level of a forest. -/
theorem unlink_inner {n : P} {fuel : Nat} : ∀ (h : Heap P) {par : Option P} {p : Option P},
    Rep l par h p → (nodes h).Nodup → n ∈ nodes h → n ∉ roots h → (nodes h).length < fuel →
    ∃ q l', (l n).parent = some q ∧ unlink q n fuel l none (l q).child = some l' ∧
      Rep l' par (cut n h) p ∧ ∀ x, x ∉ nodes (cut n h) → l' x = l x
  | .nil, _, _, _, _, mem, _, _ => nomatch mem
  | .node a c s, par, p, rep, nodup, mem, low, size => by
      obtain ⟨hp, hpar, ac, as⟩ := rep
      have split := nodup
      simp only [nodes_node, List.nodup_cons, List.mem_append, not_or, List.nodup_append]
        at split
      obtain ⟨⟨anc, ans⟩, nc, ns, apart⟩ := split
      have na : a ≠ n := fun e => low (e ▸ List.mem_cons_self)
      have lows : n ∉ roots s := fun mem' => low (List.mem_cons_of_mem _ mem')
      have sizes : (nodes c).length < fuel ∧ (nodes s).length < fuel := by
        simp only [nodes_node, List.length_cons, List.length_append] at size
        omega
      simp only [nodes_node, List.mem_cons, List.mem_append, Ne.symm na, false_or] at mem
      rcases mem with inc | ins
      · have outs : n ∉ nodes s := fun ins => apart n inc n ins rfl
        have keepS : ∀ {l' : P → Links P}, (∀ x, x ∉ a :: nodes (cut n c) → l' x = l x) →
            Rep l' par s (l a).sibling := fun frame =>
          as.frame fun x mem' => frame x fun mem'' => by
            rcases List.mem_cons.mp mem'' with e | deep
            · exact ans (e ▸ mem')
            · exact apart x (mem_cut deep) x mem' rfl
        by_cases top : n ∈ roots c
        · have parent : (l n).parent = some a := Rep.parent_of_roots ac top
          obtain ⟨l', run, rep', sib, hpar', frame⟩ :=
            unlink_child ac (List.nodup_cons.mpr ⟨anc, nc⟩) top sizes.1
          refine ⟨a, l', parent, run, ?_, ?_⟩
          · rw [cut, if_neg na, cut_of_not_mem outs]
            exact ⟨hp, hpar'.trans hpar, rep', sib ▸ keepS frame⟩
          · intro x out
            refine frame x fun mem' => out ?_
            simp only [cut, if_neg na, nodes_node, List.mem_cons, List.mem_append] at mem' ⊢
            exact mem'.imp id .inl
        · obtain ⟨q, l', parent, run, rep', frame⟩ := unlink_inner c ac nc inc top sizes.1
          have atA : l' a = l a := frame a fun mem' => anc (mem_cut mem')
          refine ⟨q, l', parent, run, ?_, ?_⟩
          · rw [cut, if_neg na, cut_of_not_mem outs]
            refine ⟨hp, by rw [atA]; exact hpar, by rw [atA]; exact rep', ?_⟩
            rw [atA]
            exact keepS fun x out => frame x fun mem' => out (List.mem_cons_of_mem _ mem')
          · intro x out
            refine frame x fun mem' => out ?_
            simp [cut, if_neg na, mem']
      · have outc : n ∉ nodes c := fun inc => apart n inc n ins rfl
        obtain ⟨q, l', parent, run, rep', frame⟩ := unlink_inner s as ns ins lows sizes.2
        have atA : l' a = l a := frame a fun mem' => ans (mem_cut mem')
        refine ⟨q, l', parent, run, ?_, ?_⟩
        · rw [cut, if_neg na, cut_of_not_mem outc]
          refine ⟨hp, by rw [atA]; exact hpar, ?_, by rw [atA]; exact rep'⟩
          rw [atA]
          exact ac.frame fun x mem' => frame x fun mem'' => apart x mem' x (mem_cut mem'') rfl
        · intro x out
          refine frame x fun mem' => out ?_
          simp [cut, if_neg na, mem']

/-- The walk of `cancel` for any node but the root. -/
theorem unlink_spec {r n : P} {c : Heap P} {fuel : Nat}
    (st : Stored l (.node r c .nil) (some r)) (mem : n ∈ nodes c)
    (size : (nodes c).length < fuel) :
    ∃ q l', (l n).parent = some q ∧ unlink q n fuel l none (l q).child = some l' ∧
      Stored l' (.node r (cut n c) .nil) (some r) ∧
      ∀ x, x ∉ r :: nodes (cut n c) → l' x = l x := by
  obtain ⟨-, -, sib, rep⟩ := st.rep
  have nodup : (r :: nodes c).Nodup := by simpa using st.nodup
  obtain ⟨out, nc⟩ := List.nodup_cons.mp nodup
  have cutNodup : (nodes (cut n c)).Nodup :=
    (List.nodup_append.mp ((nodes_cut nc mem).nodup_iff.mp nc)).2.1
  have nodup' : (nodes (.node r (cut n c) .nil)).Nodup := by
    simpa using ⟨fun mem' => out (mem_cut mem'), cutNodup⟩
  by_cases top : n ∈ roots c
  · obtain ⟨l', run, rep', sib', par', frame⟩ := unlink_child rep nodup top size
    refine ⟨r, l', rep.parent_of_roots top, run, ⟨?_, ?_, nodup'⟩, frame⟩
    · exact ⟨rfl, rfl, sib'.trans sib, rep'⟩
    · intro r' hr'
      cases hr'
      exact par'.trans (st.top r rfl)
  · obtain ⟨q, l', parent, run, rep', frame⟩ := unlink_inner c rep nc mem top size
    have atR : l' r = l r := frame r fun mem' => out (mem_cut mem')
    refine ⟨q, l', parent, run, ⟨⟨rfl, rfl, by rw [atR]; exact sib, ?_⟩, ?_, nodup'⟩, ?_⟩
    · rw [atR]
      exact rep'
    · intro r' hr'
      cases hr'
      rw [atR]
      exact st.top r rfl
    · exact fun x out' => frame x fun mem' => out' (List.mem_cons_of_mem _ mem')

/-- `cancel` removes a stored node, be it the root, an inner node or a leaf. -/
theorem cancelLinks_spec {h : Heap P} {root : Option P} {n : P} {fuel : Nat}
    (st : Stored l h root) (mem : n ∈ nodes h) (size : (nodes h).length < fuel) :
    ∃ l' root', cancelLinks expire fuel l root n = some (l', root') ∧
      Stored l' (remove (before expire) n h) root' ∧ ∀ x, x ∉ nodes h → l' x = l x := by
  cases h with
  | nil => cases mem
  | node r c s =>
      obtain ⟨rfl, rfl, sib, rep⟩ := st.rep
      have nodup : (r :: nodes c).Nodup := by simpa using st.nodup
      obtain ⟨out, nc⟩ := List.nodup_cons.mp nodup
      have size' : (nodes c).length < fuel := by
        simp only [nodes_node, nodes_nil, List.append_nil, List.length_cons] at size
        omega
      by_cases same : r = n
      · subst same
        obtain ⟨l', nr, run, stored, frame⟩ := deleteMin_spec expire rep nc size'
        refine ⟨l', nr, ?_, by simpa [remove] using stored, fun x out' => ?_⟩
        · simpa [cancelLinks] using run
        · exact frame x fun mem' => out' (by simp [mem'])
      · have inc : n ∈ nodes c := by simpa [Ne.symm same] using mem
        obtain ⟨q, l₁, parent, run, st₁, frame₁⟩ := unlink_spec st inc size'
        have split := nodes_cut nc inc
        have nodup' := (split.cons r).nodup_iff.mp nodup
        simp only [List.nodup_cons, List.cons_append, List.mem_cons, List.mem_append, not_or,
          List.nodup_append] at nodup'
        obtain ⟨⟨rn, rund, -⟩, ⟨-, ncut⟩, undNodup, -, apart⟩ := nodup'
        have atN : l₁ n = l n := frame₁ n (by simp [Ne.symm rn, ncut])
        have under₁ : Rep l₁ (some n) (under n c) (l₁ n).child := by
          rw [atN]
          refine (rep.under inc).frame fun x mem' => frame₁ x fun inCut => ?_
          rcases List.mem_cons.mp inCut with e | deep
          · exact rund (e ▸ mem')
          · exact apart x mem' x deep rfl
        have outside : ∀ x, x ∉ nodes (.node r c .nil) →
            x ∉ r :: nodes (cut n c) ∧ x ∉ nodes (under n c) := by
          intro x out'
          simp only [nodes_node, nodes_nil, List.append_nil, List.mem_cons, not_or] at out' ⊢
          exact ⟨⟨out'.1, fun m => out'.2 (mem_cut m)⟩, fun m => out'.2 (mem_under m)⟩
        have notRoot : ¬ (some r = some n) := fun e => same (Option.some.inj e)
        cases child : (l₁ n).child with
        | none =>
            -- a leaf: only the sibling list of its parent changes
            have leaf : under n c = .nil := by
              rw [child] at under₁
              cases hu : under n c with
              | nil => rfl
              | node a d s => rw [hu] at under₁; exact absurd under₁.1 (by simp)
            refine ⟨l₁, some r, ?_, ?_, fun x out' => frame₁ x (outside x out').1⟩
            · simp [cancelLinks, notRoot, parent, run, child]
            · rw [remove, if_neg same, leaf]
              exact st₁
        | some ch =>
            have sizeU : (nodes (under n c)).length < fuel := by
              have := split.length_eq
              simp only [List.length_append, List.length_cons] at this
              omega
            obtain ⟨l₂, merged, run₂, rep₂, frame₂⟩ :=
              twoPassMerge_spec expire (under n c) under₁ undNodup sizeU
            have permU := nodes_combine (before expire) (under n c)
            obtain ⟨st₃, frame₃⟩ := RepRoot.orphan rep₂ (permU.nodup_iff.mpr undNodup)
            have keep : ∀ x, x ∉ nodes (under n c) → orphan l₂ merged x = l₁ x :=
              fun x out' => (frame₃ x fun m => out' (permU.mem_iff.mp m)).trans (frame₂ x out')
            have kept : RepRoot (orphan l₂ merged) (.node r (cut n c) .nil) (some r) := by
              refine st₁.rep.frame fun x mem' => keep x fun inU => ?_
              simp only [nodes_node, nodes_nil, List.append_nil, List.mem_cons] at mem'
              rcases mem' with rfl | deep
              · exact rund inU
              · exact apart x inU x deep rfl
            have nodupM : (nodes (.node r (cut n c) .nil) ++
                nodes ((under n c).combine (before expire))).Nodup := by
              refine List.nodup_append.mpr ⟨st₁.nodup, permU.nodup_iff.mpr undNodup, ?_⟩
              intro x mem' y memY e
              subst e
              have inU := permU.mem_iff.mp memY
              simp only [nodes_node, nodes_nil, List.append_nil, List.mem_cons] at mem'
              rcases mem' with rfl | deep
              · exact rund inU
              · exact apart x inU x deep rfl
            obtain ⟨rep₄, frame₄⟩ := heapMeld_spec expire kept st₃.rep nodupM
            generalize meld : heapMeld expire (orphan l₂ merged) (some r) merged = m
              at rep₄ frame₄
            obtain ⟨l₄, root'⟩ := m
            have permM := nodes_merge (before expire) kept.noSibling st₃.rep.noSibling
            obtain ⟨st₅, frame₅⟩ := RepRoot.orphan rep₄ (permM.nodup_iff.mpr nodupM)
            refine ⟨orphan l₄ root', root', ?_, ?_, fun x out' => ?_⟩
            · rw [child] at run₂
              simp only [cancelLinks, if_neg notRoot, parent, run, child, run₂, meld]
            · rw [remove, if_neg same]
              exact st₅
            · obtain ⟨outR, outU⟩ := outside x out'
              have outC : x ∉ nodes ((under n c).combine (before expire)) :=
                fun m => outU (permU.mem_iff.mp m)
              have outR' : x ∉ nodes (.node r (cut n c) .nil) := by simpa using outR
              have outM := fun m => (List.mem_append.mp (permM.mem_iff.mp m)).elim outR' outC
              rw [frame₅ x outM, frame₄ x outR' outC, keep x outU, frame₁ x outR]

/-! ## The queue -/

/-- The representation invariant: the links store the tree `h`, no node expires
before its parent, and the owner field marks exactly the nodes of the tree,
which are the posted nodes `live`. -/
structure HeapInv (tcq : Q) (live : Set P) (s : State P Q) (h : Heap P) : Prop where
  stored : Stored s.mem.links h s.heapRoot
  ordered : h.WF (before s.mem.expire)
  posted : ∀ n, n ∈ nodes h ↔ n ∈ live
  owned : ∀ n, s.mem.ownerQueue n = some tcq ↔ n ∈ nodes h

omit [DecidableEq P] in
theorem HeapInv.empty {tcq : Q} {s : State P Q} (empty : s.heapRoot = none)
    (foreign : ∀ n, s.mem.ownerQueue n ≠ some tcq) : HeapInv tcq ∅ s .nil := by
  refine ⟨⟨empty, fun r hr => ?_, List.nodup_nil⟩, .nil, fun n => ?_, fun n => ?_⟩
  · exact absurd (empty.symm.trans hr) (by simp)
  · simp
  · simpa using foreign n

omit [DecidableEq P] in
theorem NodeWF_congr {e e' : P → Int} {h : Heap P} (same : ∀ x ∈ nodes h, e' x = e x) {a : P}
    (here : e' a = e a) (wf : h.NodeWF (before e) a) : h.NodeWF (before e') a := by
  induction h generalizing a with
  | nil => trivial
  | node b c s ihc ihs =>
      have atB := same b List.mem_cons_self
      refine ⟨?_, ihc (fun x mem => same x (by simp [mem])) atB wf.2.1,
        ihs (fun x mem => same x (by simp [mem])) here wf.2.2⟩
      have le : before e a b = true := wf.1
      intro _
      simpa [before, here, atB] using le

omit [DecidableEq P] in
theorem WF_congr {e e' : P → Int} {h : Heap P} (same : ∀ x ∈ nodes h, e' x = e x)
    (wf : h.WF (before e)) : h.WF (before e') := by
  cases wf with
  | nil => exact .nil
  | node below =>
      exact .node (NodeWF_congr (fun x mem => same x (by simp [mem]))
        (same _ List.mem_cons_self) below)

theorem clearLinks_of_ne {n x : P} (ne : x ≠ n) : clearLinks l n x = l x := by
  rw [clearLinks, setParent_of_ne ne, setSibling_of_ne ne, setChild_of_ne ne]

theorem clearLinks_self {n : P} : clearLinks l n n = ⟨none, none, none⟩ := by
  simp [clearLinks]

/-- A node that is not in the heap can be posted, with any clock value. -/
theorem HeapInv.postDelayedWork {tcq : Q} {live : Set P} {s : State P Q} {h : Heap P}
    (inv : HeapInv tcq live s h) {dwork : P} (idle : dwork ∉ live) (now : Int) (ms : UInt32) :
    ∃ h', HeapInv tcq (insert dwork live) (postDelayedWork tcq s dwork now ms) h' := by
  have out : dwork ∉ nodes h := fun mem => idle ((inv.posted dwork).mp mem)
  let expire := Function.update s.mem.expire dwork (now + milliseconds ms)
  have rep : RepRoot (clearLinks s.mem.links dwork) h s.heapRoot :=
    (inv.stored.frame fun x mem => clearLinks_of_ne fun (e : x = dwork) => out (e ▸ mem)).rep
  have fresh : RepRoot (clearLinks s.mem.links dwork) (.node dwork .nil .nil) (some dwork) :=
    ⟨rfl, rfl, by rw [clearLinks_self], by rw [clearLinks_self]; rfl⟩
  have nodup : (nodes h ++ nodes (.node dwork .nil .nil)).Nodup := by
    refine List.nodup_append.mpr ⟨inv.stored.nodup, by simp, ?_⟩
    intro x mem y mem' e
    simp only [nodes_node, nodes_nil, List.append_nil, List.mem_singleton] at mem'
    exact out (mem' ▸ e ▸ mem)
  obtain ⟨rep', -⟩ := heapMeld_spec expire rep fresh nodup
  have perm := nodes_merge (before expire) rep.noSibling fresh.noSibling
  obtain ⟨stored, -⟩ := RepRoot.orphan rep' (perm.nodup_iff.mpr nodup)
  have mem_iff : ∀ n, n ∈ nodes (h.merge (before expire) (.node dwork .nil .nil)) ↔
      n = dwork ∨ n ∈ nodes h := by
    intro n
    rw [perm.mem_iff]
    simp [or_comm]
  have ordered : h.WF (before expire) :=
    WF_congr (fun x mem => Function.update_of_ne (fun (e : x = dwork) => out (e ▸ mem)) _ _)
      inv.ordered
  refine ⟨_, stored, ordered.merge (.node trivial), fun n => ?_, fun n => ?_⟩
  · rw [mem_iff, Set.mem_insert_iff, inv.posted]
  · rw [mem_iff]
    by_cases same : n = dwork
    · simp [Timer.postDelayedWork, same]
    · simp [Timer.postDelayedWork, same, inv.owned n]

/-- What `cancel` and one round of `tim_chk_cb` have in common: a node of the
heap is taken out, its links are cleared and it loses its owner. -/
theorem HeapInv.taken {tcq : Q} {live : Set P} {s t : State P Q} {h h' : Heap P}
    (inv : HeapInv tcq live s h) {n : P} {l' : P → Links P}
    (stored : Stored l' h' t.heapRoot) (perm : (nodes h).Perm (n :: nodes h'))
    (ordered : h'.WF (before s.mem.expire)) (links : t.mem.links = clearLinks l' n)
    (expire : t.mem.expire = s.mem.expire)
    (owner : t.mem.ownerQueue = Function.update s.mem.ownerQueue n none) :
    HeapInv tcq (live \ {n}) t h' := by
  have nodup := perm.nodup_iff.mp inv.stored.nodup
  have out : n ∉ nodes h' := (List.nodup_cons.mp nodup).1
  have mem_iff : ∀ x, x ∈ nodes h' ↔ x ∈ nodes h ∧ x ≠ n := by
    intro x
    rw [perm.mem_iff, List.mem_cons]
    constructor
    · exact fun inH => ⟨.inr inH, fun e => out (e ▸ inH)⟩
    · exact fun ⟨either, ne⟩ => either.resolve_left ne
  refine ⟨?_, expire ▸ ordered, fun x => ?_, fun x => ?_⟩
  · rw [links]
    exact stored.frame fun x mem' => clearLinks_of_ne fun e => out (e ▸ mem')
  · rw [mem_iff, inv.posted, Set.mem_sdiff, Set.mem_singleton_iff]
  · rw [mem_iff, owner]
    by_cases same : x = n
    · simp [same]
    · simp [same, inv.owned x]

theorem HeapInv.cancel [DecidableEq Q] {tcq : Q} {live : Set P} {s : State P Q} {h : Heap P}
    (inv : HeapInv tcq live s h) {fuel : Nat} (size : (nodes h).length < fuel) (n : P) :
    ∃ t h', cancel tcq fuel s (some n) = some t ∧ HeapInv tcq (live \ {n}) t h' := by
  by_cases mem : n ∈ nodes h
  · obtain ⟨l', root, run, stored, -⟩ :=
      cancelLinks_spec s.mem.expire inv.stored mem size
    have owned := (inv.owned n).mpr mem
    have perm : (nodes h).Perm (n :: nodes (remove (before s.mem.expire) n h)) :=
      nodes_remove inv.stored.rep.noSibling inv.stored.nodup mem
    refine ⟨{ s with
      mem := { s.mem with
        links := clearLinks l' n
        ownerQueue := Function.update s.mem.ownerQueue n none }
      heapRoot := root }, _, ?_, inv.taken stored perm (WF_remove inv.ordered) rfl rfl rfl⟩
    simp [Timer.cancel, owned, run]
  · have idle : s.mem.ownerQueue n ≠ some tcq := fun owned => mem ((inv.owned n).mp owned)
    refine ⟨s, h, by simp [Timer.cancel, idle], ?_⟩
    have same : live \ {n} = live :=
      Set.sdiff_singleton_eq_self fun inLive => mem ((inv.posted n).mpr inLive)
    rw [same]
    exact inv

/-- Every `cancel` that returns, not only one with enough fuel. -/
theorem HeapInv.of_cancel [DecidableEq Q] {tcq : Q} {live : Set P} {s t : State P Q} {h : Heap P}
    (inv : HeapInv tcq live s h) {fuel : Nat} {n : P}
    (call : Timer.cancel tcq fuel s (some n) = some t) : ∃ h', HeapInv tcq (live \ {n}) t h' := by
  -- the call that returned and the one with enough fuel agree
  obtain ⟨t', h', call', inv'⟩ :=
    inv.cancel (show (nodes h).length < fuel + ((nodes h).length + 1) by omega) n
  have same := cancel_mono (Nat.le_add_right fuel ((nodes h).length + 1)) call
  obtain rfl : t' = t := Option.some.inj (call'.symm.trans same)
  exact ⟨h', inv'⟩

/-- `cancel` touches neither the executor's queue nor the times nor the callbacks. -/
theorem cancel_frame [DecidableEq Q] {tcq : Q} {s t : State P Q} {fuel : Nat} {n : P}
    (call : Timer.cancel tcq fuel s (some n) = some t) :
    t.wsHead = s.wsHead ∧ t.mem.func = s.mem.func ∧ t.mem.expire = s.mem.expire := by
  simp only [Timer.cancel] at call
  split at call
  · cases call
    exact ⟨rfl, rfl, rfl⟩
  · split at call <;> cases call
    exact ⟨rfl, rfl, rfl⟩

/-- What the loop of `tim_chk_cb` does outside the heap: the nodes `out` that it pops
are due, and those with a callback are appended to the executor's queue. -/
structure Popped (now : Int) (live : Set P) (s t : State P Q) (out : List P) : Prop where
  due : ∀ x ∈ out, x ∈ live ∧ s.mem.expire x ≤ now
  func : t.mem.func = s.mem.func
  expire : t.mem.expire = s.mem.expire
  wsHead : ∀ x, x ∈ t.wsHead ↔ x ∈ s.wsHead ∨ x ∈ out ∧ s.mem.func x = true
  nodup : s.wsHead.Nodup → t.wsHead.Nodup

/-- One round of the loop: the root `r`, above the trees `c`, leaves the heap. -/
structure RootPopped (tcq : Q) (live : Set P) (s t : State P Q) (r : P) (c : Heap P) : Prop where
  inv : HeapInv tcq (live \ {r}) t (c.combine (before s.mem.expire))
  func : t.mem.func = s.mem.func
  expire : t.mem.expire = s.mem.expire
  wsHead : t.wsHead = if s.mem.func r then addNewNolock s.wsHead r else s.wsHead
  owner : t.mem.ownerQueue = Function.update s.mem.ownerQueue r none
  cleared : t.mem.links r = ⟨none, none, none⟩
  frame : ∀ x, x ∉ r :: nodes c → t.mem.links x = s.mem.links x

theorem HeapInv.popRoot {tcq : Q} {live : Set P} {s : State P Q} {r : P} {c : Heap P}
    (inv : HeapInv tcq live s (.node r c .nil)) {now : Int} (due : s.mem.expire r ≤ now)
    {fuel : Nat} (size : (nodes c).length < fuel) (popped : List P) :
    ∃ t, timChkLoop now (fuel + 1) s popped = timChkLoop now fuel t (popped ++ [r]) ∧
      RootPopped tcq live s t r c := by
  obtain ⟨root, -, -, repC⟩ := inv.stored.rep
  have nodup : (r :: nodes c).Nodup := by simpa using inv.stored.nodup
  obtain ⟨l', nr, run, stored, frame⟩ :=
    deleteMin_spec s.mem.expire repC (List.nodup_cons.mp nodup).2 size
  have perm := nodes_combine (before s.mem.expire) c
  have ordered : (c.combine (before s.mem.expire)).WF (before s.mem.expire) := by
    cases inv.ordered with
    | node below => exact Heap.WF.combine below
  refine ⟨⟨{ s.mem with
      links := clearLinks l' r
      ownerQueue := Function.update s.mem.ownerQueue r none }, nr,
    if s.mem.func r then addNewNolock s.wsHead r else s.wsHead⟩, ?_, ?_, rfl, rfl, rfl, rfl, ?_, ?_⟩
  · simp only [timChkLoop, root, if_pos due, run]
  · exact inv.taken (n := r) stored (by simpa using (perm.symm.cons r)) ordered rfl rfl rfl
  · exact clearLinks_self
  · intro x out
    obtain ⟨ne, out⟩ := not_or.mp (List.mem_cons.not.mp out)
    exact (clearLinks_of_ne ne).trans (frame x out)

/-- The loop of `tim_chk_cb` ends, and what it popped has left the heap. -/
theorem timChkLoop_spec {tcq : Q} (now : Int) : ∀ {fuel : Nat} {live : Set P}
    {s : State P Q} {h : Heap P} (popped : List P), HeapInv tcq live s h →
    (nodes h).length < fuel →
    ∃ t h' out, timChkLoop now fuel s popped = some (t, popped ++ out) ∧
      HeapInv tcq (live \ {x | x ∈ out}) t h' ∧ Popped now live s t out := by
  intro fuel
  induction fuel with
  | zero => exact fun _ _ size => absurd size (Nat.not_lt_zero _)
  | succ fuel ih =>
      intro live s h popped inv size
      have rep := inv.stored.rep
      cases h with
      | nil =>
          have root : s.heapRoot = none := rep
          refine ⟨s, .nil, [], by simp [timChkLoop, root], by simpa using inv, ?_⟩
          constructor <;> simp
      | node r c sib =>
          obtain ⟨root, rfl, -, -⟩ := rep
          by_cases due : s.mem.expire r ≤ now
          · have size' : (nodes c).length < fuel := by
              simp only [nodes_node, nodes_nil, List.append_nil, List.length_cons] at size
              omega
            obtain ⟨t₁, round, pop⟩ := inv.popRoot due size' popped
            have perm := nodes_combine (before s.mem.expire) c
            obtain ⟨t, h', out, run, final, later⟩ := ih (popped ++ [r]) pop.inv
              (by rw [perm.length_eq]; exact size')
            refine ⟨t, h', r :: out, ?_, ?_, ?_⟩
            · rw [round, run, List.append_assoc, List.singleton_append]
            · have same : live \ {x | x ∈ r :: out} = (live \ {r}) \ {x | x ∈ out} := by
                ext x
                simp [and_assoc]
              exact same ▸ final
            · have top : r ∈ live := (inv.posted r).mp List.mem_cons_self
              refine ⟨fun x mem => ?_, later.func.trans pop.func, later.expire.trans pop.expire,
                fun x => ?_, fun nodup => ?_⟩
              · rcases List.mem_cons.mp mem with rfl | mem
                · exact ⟨top, due⟩
                · exact ⟨(later.due x mem).1.1, pop.expire ▸ (later.due x mem).2⟩
              · rw [later.wsHead x, pop.wsHead, pop.func]
                by_cases same : x = r
                · subst same
                  by_cases callback : s.mem.func x = true <;> simp [callback, mem_addNewNolock]
                · by_cases callback : s.mem.func r = true <;>
                    simp [callback, mem_addNewNolock, same]
              · refine later.nodup ?_
                rw [pop.wsHead]
                split
                · exact nodup_addNewNolock nodup
                · exact nodup
          · refine ⟨s, .node r c .nil, [], by simp [timChkLoop, root, due], by simpa using inv, ?_⟩
            constructor <;> simp

/-- Every `tim_chk_cb` that returns. -/
theorem HeapInv.of_timChkCb {tcq : Q} {live : Set P} {s t : State P Q} {h : Heap P}
    (inv : HeapInv tcq live s h) {now : Int} {fuel : Nat} {popped : List P}
    (call : timChkCb now fuel s = some (t, popped)) :
    ∃ h', HeapInv tcq (live \ {x | x ∈ popped}) t h' ∧ Popped now live s t popped := by
  obtain ⟨t', h', out, call', inv', spec⟩ := timChkLoop_spec now [] inv
    (show (nodes h).length < fuel + ((nodes h).length + 1) by omega)
  have same := timChkLoop_mono (Nat.le_add_right fuel ((nodes h).length + 1)) call
  obtain ⟨rfl, rfl⟩ : t' = t ∧ out = popped := by
    simpa using Prod.mk.inj (Option.some.inj (call'.symm.trans same))
  exact ⟨h', inv', spec⟩

end CoWq.Timer
