import Mathlib

/-!
# Pairing heaps stored as linked nodes

The pure heap is `Batteries.PairingHeapImp.Heap`: a forest in the
child/sibling representation, with `merge` and the two-pass `combine`.  This
module gives it a memory representation, where each node of the forest is an
address with a `child`, a `sibling` and a `parent` link.

* `Heap.nodes`: the addresses of a forest; `merge` and `combine` permute them.
* `Rep l par h p`: from the link `p` the links `l` spell out the forest `h`, and
  the top-level nodes name `par` as their parent.  `RepRoot` is the same for a
  single tree whose own parent link is not looked at.
* `Rep.frame`: writes outside a forest do not disturb it.
* `Heap.cut`, `Heap.under`: a forest without a node and its subtree, and the
  forest below a node.
-/

namespace CoWq

/-- The three links of a heap node. -/
structure Links (P : Type*) where
  child : Option P
  sibling : Option P
  parent : Option P

namespace Links

variable {P : Type*} [DecidableEq P]

def setChild (l : P → Links P) (a : P) (p : Option P) : P → Links P :=
  Function.update l a { l a with child := p }

def setSibling (l : P → Links P) (a : P) (p : Option P) : P → Links P :=
  Function.update l a { l a with sibling := p }

def setParent (l : P → Links P) (a : P) (p : Option P) : P → Links P :=
  Function.update l a { l a with parent := p }

theorem setChild_of_ne {l : P → Links P} {a x : P} {p : Option P} (h : x ≠ a) :
    setChild l a p x = l x := by
  simp [setChild, h]

theorem setSibling_of_ne {l : P → Links P} {a x : P} {p : Option P} (h : x ≠ a) :
    setSibling l a p x = l x := by
  simp [setSibling, h]

theorem setParent_of_ne {l : P → Links P} {a x : P} {p : Option P} (h : x ≠ a) :
    setParent l a p x = l x := by
  simp [setParent, h]

@[simp] theorem setChild_self {l : P → Links P} {a : P} {p : Option P} :
    setChild l a p a = { l a with child := p } := by
  simp [setChild]

@[simp] theorem setSibling_self {l : P → Links P} {a : P} {p : Option P} :
    setSibling l a p a = { l a with sibling := p } := by
  simp [setSibling]

@[simp] theorem setParent_self {l : P → Links P} {a : P} {p : Option P} :
    setParent l a p a = { l a with parent := p } := by
  simp [setParent]

end Links

open Batteries.PairingHeapImp

namespace LinkedHeap

variable {P : Type*}

/-! ## The addresses of a forest -/

/-- The nodes of a forest, a parent before its children. -/
def nodes : Heap P → List P
  | .nil => []
  | .node a c s => a :: (nodes c ++ nodes s)

/-- The top-level nodes of a forest: one sibling chain. -/
def roots : Heap P → List P
  | .nil => []
  | .node a _ s => a :: roots s

@[simp] theorem nodes_nil : nodes (.nil : Heap P) = [] := rfl

@[simp] theorem nodes_node (a : P) (c s : Heap P) :
    nodes (.node a c s) = a :: (nodes c ++ nodes s) := rfl

theorem roots_subset {h : Heap P} {n : P} (mem : n ∈ roots h) : n ∈ nodes h := by
  induction h with
  | nil => cases mem
  | node a c s _ ih =>
      rcases List.mem_cons.mp mem with rfl | later
      · exact List.mem_cons_self
      · simp [ih later]

theorem nodes_merge_node (le : P → P → Bool) (a b : P) (c d s t : Heap P) :
    (nodes (Heap.merge le (.node a c s) (.node b d t))).Perm
      (a :: nodes c ++ b :: nodes d) := by
  unfold Heap.merge
  dsimp only
  split
  · -- `b` becomes the first child of `a`
    simp only [nodes_node, nodes_nil, List.append_nil, List.cons_append]
    exact List.Perm.cons a (@List.perm_append_comm _ (b :: nodes d) (nodes c))
  · simp only [nodes_node, nodes_nil, List.append_nil, List.cons_append]
    exact (List.Perm.cons b (@List.perm_append_comm _ (a :: nodes c) (nodes d))).trans
      (@List.perm_append_comm _ (b :: nodes d) (a :: nodes c))

theorem nodes_merge (le : P → P → Bool) {g h : Heap P} (hg : g.NoSibling) (hh : h.NoSibling) :
    (nodes (g.merge le h)).Perm (nodes g ++ nodes h) := by
  cases hg with
  | nil => cases hh <;> simp [Heap.merge]
  | node a c =>
      cases hh with
      | nil => simp [Heap.merge]
      | node b d => simpa using nodes_merge_node le a b c d .nil .nil

theorem nodes_combine (le : P → P → Bool) :
    ∀ h : Heap P, (nodes (h.combine le)).Perm (nodes h)
  | .nil => by simp [Heap.combine]
  | .node a c .nil => by simp [Heap.combine]
  | .node a c (.node b d s) => by
      have ih := nodes_combine le s
      unfold Heap.combine
      refine (nodes_merge le (Heap.noSibling_merge _ _ _) (Heap.noSibling_combine _ _)).trans ?_
      refine ((nodes_merge_node le a b c d _ _).append ih).trans ?_
      simp

/-! ## Removing an inner node -/

variable [DecidableEq P]

/-- The forest without the node `n` and without what hangs below it. -/
def cut (n : P) : Heap P → Heap P
  | .nil => .nil
  | .node a c s => if a = n then s else .node a (cut n c) (cut n s)

/-- The forest that hangs below the node `n`. -/
def under (n : P) : Heap P → Heap P
  | .nil => .nil
  | .node a c s => if a = n then c else if n ∈ nodes c then under n c else under n s

theorem cut_of_not_mem {n : P} {h : Heap P} (out : n ∉ nodes h) : cut n h = h := by
  induction h with
  | nil => rfl
  | node a c s ihc ihs =>
      simp only [nodes_node, List.mem_cons, List.mem_append, not_or] at out
      simp [cut, Ne.symm out.1, ihc out.2.1, ihs out.2.2]

theorem mem_cut {n x : P} {h : Heap P} (mem : x ∈ nodes (cut n h)) : x ∈ nodes h := by
  induction h with
  | nil => exact mem
  | node a c s ihc ihs =>
      by_cases same : a = n
      · rw [cut, if_pos same] at mem
        simp [mem]
      · rw [cut, if_neg same] at mem
        simp only [nodes_node, List.mem_cons, List.mem_append] at mem ⊢
        exact mem.imp id (Or.imp ihc ihs)

/-- Cutting splits the addresses into the node, its subtree and the rest. -/
theorem nodes_cut {n : P} {h : Heap P} (nodup : (nodes h).Nodup) (mem : n ∈ nodes h) :
    (nodes h).Perm (n :: nodes (under n h) ++ nodes (cut n h)) := by
  induction h with
  | nil => cases mem
  | node a c s ihc ihs =>
      simp only [nodes_node, List.nodup_cons, List.mem_append, not_or, List.nodup_append]
        at nodup
      obtain ⟨⟨ac, as⟩, nc, ns, apart⟩ := nodup
      by_cases same : a = n
      · subst same
        simp [cut, under]
      · have below : n ∈ nodes c ∨ n ∈ nodes s := by
          simpa [Ne.symm same] using mem
        rcases below with inc | ins
        · have outs : n ∉ nodes s := fun ins => apart n inc n ins rfl
          simp only [cut, under, if_neg same, if_pos inc, nodes_node, cut_of_not_mem outs]
          refine (((ihc nc inc).append_right (nodes s)).cons a).trans ?_
          simp only [List.cons_append, List.append_assoc]
          refine (List.Perm.swap n a _).trans (List.Perm.cons n ?_)
          exact List.perm_middle.symm
        · have outc : n ∉ nodes c := fun inc => apart n inc n ins rfl
          simp only [cut, under, if_neg same, if_neg outc, nodes_node, cut_of_not_mem outc]
          refine (((ihs ns ins).append_left (nodes c)).cons a).trans ?_
          have swap : (a :: nodes c ++ (n :: nodes (under n s)) ++ nodes (cut n s)).Perm
              ((n :: nodes (under n s)) ++ (a :: nodes c) ++ nodes (cut n s)) :=
            List.perm_append_comm.append_right _
          simpa using swap

theorem mem_under {n x : P} {h : Heap P} (mem : x ∈ nodes (under n h)) : x ∈ nodes h := by
  induction h with
  | nil => exact mem
  | node a c s ihc ihs =>
      rw [under] at mem
      split at mem
      · simp [mem]
      · split at mem
        · simp [ihc mem]
        · simp [ihs mem]

/-- The heap without `n`: the children of `n` are combined and melded back. -/
def remove (le : P → P → Bool) (n : P) : Heap P → Heap P
  | .nil => .nil
  | .node r c _ =>
      if r = n then c.combine le
      else Heap.merge le (.node r (cut n c) .nil) ((under n c).combine le)

/-- Removing takes out that node and no other. -/
theorem nodes_remove {le : P → P → Bool} {n : P} {h : Heap P} (one : h.NoSibling)
    (nodup : (nodes h).Nodup) (mem : n ∈ nodes h) :
    (nodes h).Perm (n :: nodes (remove le n h)) := by
  cases one with
  | nil => cases mem
  | node r c =>
      by_cases same : r = n
      · subst same
        simpa [remove] using (nodes_combine le c).symm
      · have inc : n ∈ nodes c := by simpa [Ne.symm same] using mem
        have nc : (nodes c).Nodup := by simpa using (List.nodup_cons.mp nodup).2
        rw [remove, if_neg same]
        have merged := nodes_merge le (.node r (cut n c))
          (Heap.noSibling_combine le (under n c))
        refine List.Perm.trans ?_ (merged.symm.cons n)
        simp only [nodes_node, nodes_nil, List.append_nil, List.cons_append]
        refine ((nodes_cut nc inc).cons r).trans ((List.Perm.swap n r _).trans ?_)
        refine List.Perm.cons n (List.Perm.cons r ?_)
        exact List.perm_append_comm.trans ((nodes_combine le (under n c)).symm.append_left _)

/-! ## Heap order -/

theorem NodeWF_cut {le : P → P → Bool} {n a : P} {h : Heap P} (wf : h.NodeWF le a) :
    (cut n h).NodeWF le a := by
  induction h generalizing a with
  | nil => trivial
  | node b c s ihc ihs =>
      rw [cut]
      split
      · exact wf.2.2
      · exact ⟨wf.1, ihc wf.2.1, ihs wf.2.2⟩

theorem NodeWF_under {le : P → P → Bool} {n a : P} {h : Heap P} (wf : h.NodeWF le a) :
    (under n h).NodeWF le n := by
  induction h generalizing a with
  | nil => trivial
  | node b c s ihc ihs =>
      rw [under]
      split
      · rename_i same
        exact same ▸ wf.2.1
      · split
        · exact ihc wf.2.1
        · exact ihs wf.2.2

theorem WF_remove {le : P → P → Bool} {n : P} {h : Heap P} (wf : h.WF le) :
    (remove le n h).WF le := by
  cases wf with
  | nil => exact .nil
  | @node r c below =>
      rw [remove]
      split
      · exact Heap.WF.combine below
      · exact Heap.WF.merge (.node (NodeWF_cut below)) (Heap.WF.combine (NodeWF_under below))

/-! ## Representation in memory -/

/-- The link `p` spells out the forest, whose top-level nodes have parent `par`. -/
def Rep (l : P → Links P) (par : Option P) : Heap P → Option P → Prop
  | .nil, p => p = none
  | .node a c s, p => p = some a ∧ (l a).parent = par ∧
      Rep l (some a) c (l a).child ∧ Rep l par s (l a).sibling

/-- The link `p` spells out a single tree; the root's own parent is free. -/
def RepRoot (l : P → Links P) : Heap P → Option P → Prop
  | .nil, p => p = none
  | .node a c s, p => p = some a ∧ s = .nil ∧ (l a).sibling = none ∧
      Rep l (some a) c (l a).child

variable {l l' : P → Links P} {par : Option P}

omit [DecidableEq P] in
theorem Rep.frame {h : Heap P} {p : Option P} (rep : Rep l par h p)
    (same : ∀ x ∈ nodes h, l' x = l x) : Rep l' par h p := by
  induction h generalizing par p with
  | nil => exact rep
  | node a c s ihc ihs =>
      obtain ⟨hp, hpar, hc, hs⟩ := rep
      have here : l' a = l a := same a List.mem_cons_self
      refine ⟨hp, by rw [here]; exact hpar, ?_, ?_⟩
      · rw [here]
        exact ihc hc fun x mem => same x (by simp [mem])
      · rw [here]
        exact ihs hs fun x mem => same x (by simp [mem])

omit [DecidableEq P] in
theorem RepRoot.frame {h : Heap P} {p : Option P} (rep : RepRoot l h p)
    (same : ∀ x ∈ nodes h, l' x = l x) : RepRoot l' h p := by
  cases h with
  | nil => exact rep
  | node a c s =>
      obtain ⟨hp, hs, hsib, hc⟩ := rep
      have here : l' a = l a := same a List.mem_cons_self
      refine ⟨hp, hs, by rw [here]; exact hsib, ?_⟩
      rw [here]
      exact hc.frame fun x mem => same x (by simp [mem])

omit [DecidableEq P] in
theorem RepRoot.noSibling {h : Heap P} {p : Option P} (rep : RepRoot l h p) : h.NoSibling := by
  cases h with
  | nil => exact .nil
  | node a c s =>
      obtain ⟨-, rfl, -⟩ := rep
      exact .node a c

omit [DecidableEq P] in
/-- A tree whose root has no sibling in memory, seen as a forest of one. -/
theorem Rep.toRoot {a : P} {c : Heap P} {p : Option P} (rep : Rep l par (.node a c .nil) p) :
    RepRoot l (.node a c .nil) p :=
  ⟨rep.1, rfl, rep.2.2.2, rep.2.2.1⟩

/-- What hangs below a node is spelled out by its child link. -/
theorem Rep.under {h : Heap P} {p : Option P} (rep : Rep l par h p) {n : P}
    (mem : n ∈ nodes h) : Rep l (some n) (under n h) (l n).child := by
  induction h generalizing par p with
  | nil => cases mem
  | node a c s ihc ihs =>
      obtain ⟨-, -, hc, hs⟩ := rep
      rw [LinkedHeap.under]
      split
      · rename_i same
        exact same ▸ hc
      · rename_i other
        split
        · rename_i inc
          exact ihc hc inc
        · rename_i outc
          have ins : n ∈ nodes s := by simpa [Ne.symm other, outc] using mem
          exact ihs hs ins

omit [DecidableEq P] in
theorem Rep.parent_of_roots {h : Heap P} {p : Option P} (rep : Rep l par h p) {n : P}
    (mem : n ∈ roots h) : (l n).parent = par := by
  induction h generalizing p with
  | nil => cases mem
  | node a c s _ ih =>
      rcases List.mem_cons.mp mem with rfl | later
      · exact rep.2.1
      · exact ih rep.2.2.2 later

/-! ## Sibling chains -/

/-- From the link `p` the sibling links spell out the list. -/
def Chain (l : P → Links P) : Option P → List P → Prop
  | p, [] => p = none
  | p, a :: as => p = some a ∧ Chain l (l a).sibling as

omit [DecidableEq P] in
theorem Rep.chain {h : Heap P} {p : Option P} (rep : Rep l par h p) : Chain l p (roots h) := by
  induction h generalizing p with
  | nil => exact rep
  | node a c s _ ih => exact ⟨rep.1, ih rep.2.2.2⟩

omit [DecidableEq P] in
theorem roots_sublist (h : Heap P) : (roots h).Sublist (nodes h) := by
  induction h with
  | nil => exact .slnil
  | node a c s _ ih => exact .cons_cons a (ih.trans (List.sublist_append_right _ _))

theorem nodup_under {n : P} {h : Heap P} (nodup : (nodes h).Nodup) (mem : n ∈ nodes h) :
    (n :: nodes (under n h)).Nodup :=
  (List.nodup_append.mp ((nodes_cut nodup mem).nodup_iff.mp nodup)).1

/-- Every node of a forest is a top-level node or in the chain of one of its nodes. -/
theorem roots_or_under {n : P} {h : Heap P} (nodup : (nodes h).Nodup) (mem : n ∈ nodes h) :
    n ∈ roots h ∨ ∃ q ∈ nodes h, n ∈ roots (under q h) := by
  induction h with
  | nil => cases mem
  | node a c s ihc ihs =>
      simp only [nodes_node, List.nodup_cons, List.mem_append, not_or, List.nodup_append]
        at nodup
      obtain ⟨⟨ac, as⟩, nc, ns, apart⟩ := nodup
      simp only [nodes_node, List.mem_cons, List.mem_append] at mem
      rcases mem with rfl | inc | ins
      · exact .inl List.mem_cons_self
      · rcases ihc nc inc with top | ⟨q, hq, low⟩
        · exact .inr ⟨a, List.mem_cons_self, by rwa [under, if_pos rfl]⟩
        · have other : a ≠ q := fun e => ac (e ▸ hq)
          refine .inr ⟨q, by simp [hq], ?_⟩
          rwa [under, if_neg other, if_pos hq]
      · rcases ihs ns ins with top | ⟨q, hq, low⟩
        · exact .inl (List.mem_cons_of_mem _ top)
        · have other : a ≠ q := fun e => as (e ▸ hq)
          have out : q ∉ nodes c := fun inc => apart q inc q hq rfl
          refine .inr ⟨q, by simp [hq], ?_⟩
          rwa [under, if_neg other, if_neg out]

omit [DecidableEq P] in
theorem NodeWF_roots {le : P → P → Bool} [Batteries.TotalBLE le] {a n : P} {h : Heap P}
    (wf : h.NodeWF le a)
    (mem : n ∈ roots h) : le a n := by
  induction h with
  | nil => cases mem
  | node b c s _ ih =>
      rcases List.mem_cons.mp mem with rfl | later
      · exact wf.1
      · exact ih wf.2.2 later

omit [DecidableEq P] in
/-- A node comes before everything that is stored below it. -/
theorem NodeWF_nodes {le : P → P → Bool} [Batteries.TotalBLE le]
    (trans : ∀ {a b c : P}, le a b → le b c → le a c) {a n : P} {h : Heap P} (wf : h.NodeWF le a)
    (mem : n ∈ nodes h) : le a n := by
  induction h generalizing a with
  | nil => cases mem
  | node b c s ihc ihs =>
      obtain ⟨first, below, later⟩ := wf
      simp only [nodes_node, List.mem_cons, List.mem_append] at mem
      rcases mem with rfl | inC | inS
      · exact first
      · exact trans first (ihc below inC)
      · exact ihs later inS

/-- In an ordered heap every node comes before the nodes of its chain. -/
theorem WF_under {le : P → P → Bool} [Batteries.TotalBLE le] {q n : P} {h : Heap P} (wf : h.WF le)
    (mem : n ∈ roots (under q h)) : le q n := by
  cases wf with
  | nil => cases mem
  | @node r c below =>
      by_cases same : r = q
      · subst same
        rw [under, if_pos rfl] at mem
        exact NodeWF_roots below mem
      · rw [under, if_neg same] at mem
        split at mem
        · exact NodeWF_roots (NodeWF_under below) mem
        · cases mem

end LinkedHeap

end CoWq
