import LibGTop.Base.LinkedCells
import Mathlib.Data.List.Perm.Basic

/-!
# Chained tables

A hash table in a heap: an array of heads, which are placeholders, and behind each head the chain of
the nodes with its hash. A key is registered by a new node, or noted in the node that has it. The
table is a list of nodes with keys of their own, in the order in which they were obtained.
-/

namespace LibGTop.Base

variable {α κ σ : Type}

/-- The layout of a table: the number of heads, what each holds, and where a key belongs. -/
structure TableLayout (α κ : Type) where
  size : Nat
  head : α
  key : α → κ
  hash : κ → Nat
  hash_lt : ∀ k, hash k < size

namespace TableLayout

variable (t : TableLayout α κ)

/-- The table without nodes. -/
def empty : Heap α where
  cell a := if a < t.size then some ⟨t.head, none⟩ else none
  fresh := t.size

/-- A key is registered. -/
def register [DecidableEq κ] (again : α → α) (new : α) (heap : Heap α) : Option (Heap α) := do
  let i := t.hash (t.key new)
  match ← heap.search (fun x ↦ t.key x = t.key new) heap.fresh i (some i) with
  | .found info =>
    let c ← heap.cell info
    some (heap.put info { c with item := again c.item })
  | .missing last =>
    let c ← heap.cell last
    some ((heap.obtain ⟨new, none⟩).put last { c with next := some heap.fresh })

/-- The fold of all items, the heads among them. -/
def foldAll (step : σ → α → σ) (s : σ) (heap : Heap α) : Option σ :=
  (List.range t.size).foldlM (fun s i ↦ heap.fold step heap.fresh s (some i)) s

/-- The nodes of a bucket with their addresses. -/
def bucket (nodes : List α) (i : Nat) : List (α × Nat) :=
  (nodes.zipIdx t.size).filter fun q ↦ t.hash (t.key q.1) = i

/-- The heap holds these nodes. -/
structure Holds (heap : Heap α) (nodes : List α) : Prop where
  fresh : heap.fresh = t.size + nodes.length
  distinct : (nodes.map t.key).Nodup
  chain : ∀ i < t.size, Chain heap.cell (some i) ((t.head, i) :: t.bucket nodes i)

/-- The nodes when a key has been registered. -/
def noted [DecidableEq κ] (again : α → α) (new : α) (nodes : List α) : List α :=
  if t.key new ∈ nodes.map t.key then
    nodes.map fun x ↦ if t.key x = t.key new then again x else x
  else nodes ++ [new]

variable {t} {heap : Heap α} {nodes : List α}

theorem holds_empty : t.Holds t.empty [] where
  fresh := rfl
  distinct := List.nodup_nil
  chain _ hi := ⟨rfl, none, if_pos hi, rfl⟩

/-! ### The addresses -/

theorem mem_zipIdx_of_mem_bucket {q : α × Nat} {i : Nat} (h : q ∈ t.bucket nodes i) :
    q ∈ nodes.zipIdx t.size :=
  (List.mem_filter.mp h).1

theorem size_le_of_mem_bucket {q : α × Nat} {i : Nat} (h : q ∈ t.bucket nodes i) : t.size ≤ q.2 :=
  List.le_snd_of_mem_zipIdx (mem_zipIdx_of_mem_bucket h)

theorem nodup_addresses : ((nodes.zipIdx t.size).map Prod.snd).Nodup := by
  rw [List.zipIdx_map_snd]
  exact List.nodup_range'

theorem nodup_bucket (i : Nat) : ((t.bucket nodes i).map Prod.snd).Nodup :=
  nodup_addresses.sublist (List.filter_sublist.map Prod.snd)

/-- An address is of one node. -/
theorem eq_of_address_eq {q r : α × Nat} (hq : q ∈ nodes.zipIdx t.size)
    (hr : r ∈ nodes.zipIdx t.size) (h : q.2 = r.2) : q = r :=
  List.inj_on_of_nodup_map nodup_addresses hq hr h

/-- A key is of one node. -/
theorem Holds.eq_of_key_eq (h : t.Holds heap nodes) {q r : α × Nat}
    (hq : q ∈ nodes.zipIdx t.size) (hr : r ∈ nodes.zipIdx t.size) (hk : t.key q.1 = t.key r.1) :
    q = r := by
  have hn : ((nodes.zipIdx t.size).map fun q ↦ t.key q.1).Nodup := by
    have hmap : (nodes.zipIdx t.size).map (fun q ↦ t.key q.1) = nodes.map t.key := by
      conv_rhs => rw [← List.zipIdx_map_fst t.size nodes, List.map_map]
      rfl
    rw [hmap]
    exact h.distinct
  exact List.inj_on_of_nodup_map hn hq hr hk

theorem Holds.length_chain_le (h : t.Holds heap nodes) {i : Nat} (hi : i < t.size) :
    ((t.head, i) :: t.bucket nodes i).length ≤ heap.fresh := by
  have hle : (t.bucket nodes i).length ≤ nodes.length :=
    Nat.le_trans (List.length_filter_le _ _) (Nat.le_of_eq List.length_zipIdx)
  rw [h.fresh, List.length_cons]
  omega

theorem Holds.address_lt (h : t.Holds heap nodes) {i : Nat} (hi : i < t.size) {q : α × Nat}
    (hq : q ∈ (t.head, i) :: t.bucket nodes i) : q.2 < heap.fresh := by
  rw [h.fresh]
  rcases List.mem_cons.mp hq with rfl | hq
  · exact Nat.lt_add_right nodes.length hi
  · have hlt := List.snd_lt_add_of_mem_zipIdx (mem_zipIdx_of_mem_bucket hq)
    omega

theorem nodup_chain (nodes : List α) {i : Nat} (hi : i < t.size) :
    (((t.head, i) :: t.bucket nodes i).map Prod.snd).Nodup := by
  refine List.nodup_cons.mpr ⟨fun hmem ↦ ?_, nodup_bucket i⟩
  obtain ⟨q, hq, he⟩ := List.mem_map.mp hmem
  have hle := size_le_of_mem_bucket hq
  omega

/-- The chains of two buckets have no address in common. -/
theorem address_ne {i j : Nat} (hi : i < t.size) (hj : j < t.size) (hij : i ≠ j) {q r : α × Nat}
    (hq : q ∈ (t.head, i) :: t.bucket nodes i) (hr : r ∈ (t.head, j) :: t.bucket nodes j) :
    q.2 ≠ r.2 := by
  intro he
  rcases List.mem_cons.mp hq with rfl | hq
  · rcases List.mem_cons.mp hr with rfl | hr
    · exact hij he
    · have hle := size_le_of_mem_bucket hr
      omega
  · have hle := size_le_of_mem_bucket hq
    rcases List.mem_cons.mp hr with rfl | hr
    · omega
    · have heq := eq_of_address_eq (mem_zipIdx_of_mem_bucket hq) (mem_zipIdx_of_mem_bucket hr) he
      subst heq
      have hqi := of_decide_eq_true (List.mem_filter.mp hq).2
      have hqj := of_decide_eq_true (List.mem_filter.mp hr).2
      exact hij (hqi.symm.trans hqj)

theorem mem_bucket {q : α × Nat} (hq : q ∈ nodes.zipIdx t.size) :
    q ∈ t.bucket nodes (t.hash (t.key q.1)) :=
  List.mem_filter.mpr ⟨hq, decide_eq_true rfl⟩

theorem bucket_map {f : α → α} (hf : ∀ x, t.key (f x) = t.key x) (i : Nat) :
    t.bucket (nodes.map f) i = (t.bucket nodes i).map (Prod.map f id) := by
  rw [bucket, bucket, List.zipIdx_map, List.filter_map]
  refine congrArg _ (List.filter_congr fun q _ ↦ ?_)
  simp [hf]

theorem bucket_concat (new : α) (i : Nat) :
    t.bucket (nodes ++ [new]) i = t.bucket nodes i ++
      if t.hash (t.key new) = i then [(new, t.size + nodes.length)] else [] := by
  rw [bucket, List.zipIdx_append, List.filter_append, bucket, List.zipIdx_singleton,
    List.filter_singleton]
  simp

/-- A new node is linked to the last cell of its chain. -/
theorem Holds.link (h : t.Holds heap nodes) {new : α} (hkey : t.key new ∉ nodes.map t.key)
    {others : List (α × Nat)} {last : α × Nat}
    (hsplit : (t.head, t.hash (t.key new)) :: t.bucket nodes (t.hash (t.key new)) =
      others ++ [last]) :
    t.Holds ((heap.obtain ⟨new, none⟩).put last.2 ⟨last.1, some heap.fresh⟩) (nodes ++ [new]) := by
  have hi := t.hash_lt (t.key new)
  have hfresh := h.fresh
  have hlast : last ∈ (t.head, t.hash (t.key new)) :: t.bucket nodes (t.hash (t.key new)) :=
    hsplit ▸ List.mem_append_right others List.mem_cons_self
  -- the other cells stay as they are
  have hput : ∀ i < t.size, ∀ q ∈ (t.head, i) :: t.bucket nodes i, q.2 ≠ last.2 →
      ((heap.obtain ⟨new, none⟩).put last.2 ⟨last.1, some heap.fresh⟩).cell q.2 =
        heap.cell q.2 := by
    intro i hi q hq hne
    have hlt := h.address_lt hi hq
    rw [Heap.put_cell_of_ne _ _ hne, Heap.obtain_cell_of_ne _ _ (Nat.ne_of_lt hlt)]
  refine ⟨?_, ?_, fun i hi ↦ ?_⟩
  · rw [Heap.put_fresh, Heap.obtain_fresh, hfresh, List.length_append, List.length_singleton]
    omega
  · rw [List.map_append]
    exact List.nodup_append.mpr ⟨h.distinct, List.nodup_singleton _, by simpa using hkey⟩
  · rw [bucket_concat]
    by_cases hij : t.hash (t.key new) = i
    · -- the bucket of the key
      subst hij
      have hn := nodup_chain nodes hi
      rw [hsplit, List.map_append, List.map_singleton] at hn
      have hchain := h.chain _ hi
      rw [if_pos rfl, ← List.cons_append, hsplit, ← hfresh]
      refine Chain.concat (hsplit ▸ hchain) (fun q hq ↦ ?_) ?_ ?_
      · refine hput _ hi q (hsplit ▸ List.mem_append_left _ hq) fun he ↦ ?_
        exact (List.nodup_append.mp hn).2.2 _ (List.mem_map_of_mem hq) _ List.mem_cons_self he
      · exact Heap.put_cell_self _ _ _
      · have hlt := h.address_lt hi hlast
        rw [Heap.put_cell_of_ne _ _ (Nat.ne_of_gt hlt), Heap.obtain_cell_fresh]
    · rw [if_neg hij, List.append_nil]
      refine (h.chain i hi).congr fun q hq ↦ hput i hi q hq ?_
      exact address_ne hi (t.hash_lt _) (Ne.symm hij) hq hlast

/-- A node with the key would be in the bucket of the key. -/
theorem key_notMem {new : α}
    (h : ∀ q ∈ t.bucket nodes (t.hash (t.key new)), t.key q.1 ≠ t.key new) :
    t.key new ∉ nodes.map t.key := by
  intro hmem
  obtain ⟨x, hx, hkey⟩ := List.mem_map.mp hmem
  rw [← List.zipIdx_map_fst t.size nodes] at hx
  obtain ⟨q, hq, rfl⟩ := List.mem_map.mp hx
  have hbucket := mem_bucket hq
  rw [hkey] at hbucket
  exact h q hbucket hkey

/-! ### A key is registered -/

section

variable [DecidableEq κ] {again : α → α} {new : α}

theorem key_note (hagain : ∀ x, t.key (again x) = t.key x) (x : α) :
    t.key (if t.key x = t.key new then again x else x) = t.key x := by
  split
  · exact hagain x
  · rfl

/-- A node is noted in its place. -/
theorem Holds.note (h : t.Holds heap nodes) (hagain : ∀ x, t.key (again x) = t.key x)
    (hhead : t.key t.head ≠ t.key new) {q : α × Nat} (hmem : q ∈ nodes.zipIdx t.size)
    (hkey : t.key q.1 = t.key new) {next : Option Nat} (hcell : heap.cell q.2 = some ⟨q.1, next⟩) :
    t.Holds (heap.put q.2 ⟨again q.1, next⟩)
      (nodes.map fun x ↦ if t.key x = t.key new then again x else x) where
  fresh := by
    rw [List.length_map]
    exact h.fresh
  distinct := by
    have hkeys : t.key ∘ (fun x ↦ if t.key x = t.key new then again x else x) = t.key :=
      funext (key_note hagain)
    rw [List.map_map, hkeys]
    exact h.distinct
  chain i hi := by
    have hnoted : Chain (heap.put q.2 ⟨again q.1, next⟩).cell (some i)
        (((t.head, i) :: t.bucket nodes i).map
          (Prod.map (fun x ↦ if t.key x = t.key new then again x else x) id)) := by
      refine (h.chain i hi).map _ fun r hr next' hr' ↦ ?_
      by_cases ha : r.2 = q.2
      · -- the node itself
        rw [ha, hcell] at hr'
        obtain ⟨hitem, hnext⟩ : q.1 = r.1 ∧ next = next' := by simpa using hr'
        rw [ha, Heap.put_cell_self, ← hitem, ← hnext, if_pos hkey]
      · -- another one has another key
        have hother : t.key r.1 ≠ t.key new := by
          intro hr''
          rcases List.mem_cons.mp hr with rfl | hr
          · exact hhead hr''
          · have heq := h.eq_of_key_eq (mem_zipIdx_of_mem_bucket hr) hmem (hr''.trans hkey.symm)
            exact ha (congrArg Prod.snd heq)
        rw [heap.put_cell_of_ne _ ha, hr', if_neg hother]
    rw [bucket_map (key_note hagain)]
    simpa [hhead] using hnoted

/-- The key of a node that the table has is noted there. -/
theorem Holds.register_found (h : t.Holds heap nodes) (hagain : ∀ x, t.key (again x) = t.key x)
    (hhead : t.key t.head ≠ t.key new) {q : α × Nat}
    (hq : ((t.head, t.hash (t.key new)) :: t.bucket nodes (t.hash (t.key new))).find?
      (fun q ↦ t.key q.1 = t.key new) = some q) :
    t.key new ∈ nodes.map t.key ∧ ∃ heap', t.register again new heap = some heap' ∧
      t.Holds heap' (nodes.map fun x ↦ if t.key x = t.key new then again x else x) := by
  obtain ⟨hkey, before, behind, hsplit, hbefore⟩ := List.find?_eq_some_iff_append.mp hq
  have hkey : t.key q.1 = t.key new := of_decide_eq_true hkey
  have hi := t.hash_lt (t.key new)
  have hchain := h.chain _ hi
  have hmem : q ∈ nodes.zipIdx t.size := by
    rcases List.mem_cons.mp (List.mem_of_find?_eq_some hq) with rfl | hmem
    · exact absurd hkey hhead
    · exact mem_zipIdx_of_mem_bucket hmem
  obtain ⟨next, hcell⟩ := hchain.cell_of_mem (List.mem_of_find?_eq_some hq)
  have hfuel : before.length < heap.fresh := by
    have hle := h.length_chain_le hi
    rw [hsplit, List.length_append, List.length_cons] at hle
    omega
  have hsearch : heap.search (fun x ↦ t.key x = t.key new) heap.fresh (t.hash (t.key new))
      (some (t.hash (t.key new))) = some (.found q.2) := by
    refine Heap.search_found (hsplit ▸ hchain) (fun r hr ↦ ?_) (decide_eq_true hkey) hfuel
    simpa using hbefore r hr
  exact ⟨List.mem_map.mpr ⟨q.1, List.fst_mem_of_mem_zipIdx hmem, hkey⟩,
    heap.put q.2 ⟨again q.1, next⟩, by simp [register, hsearch, hcell],
    h.note hagain hhead hmem hkey hcell⟩

/-- A key that the table has not is linked to the end of its chain. -/
theorem Holds.register_missing (h : t.Holds heap nodes) (again : α → α)
    (hq : ((t.head, t.hash (t.key new)) :: t.bucket nodes (t.hash (t.key new))).find?
      (fun q ↦ t.key q.1 = t.key new) = none) :
    t.key new ∉ nodes.map t.key ∧ ∃ heap', t.register again new heap = some heap' ∧
      t.Holds heap' (nodes ++ [new]) := by
  have hi := t.hash_lt (t.key new)
  have hchain := h.chain _ hi
  have hnone : ∀ q ∈ (t.head, t.hash (t.key new)) :: t.bucket nodes (t.hash (t.key new)),
      ¬t.key q.1 = t.key new := by
    simpa using List.find?_eq_none.mp hq
  have hkey := key_notMem (List.forall_mem_cons.mp hnone).2
  obtain ⟨others, last, hsplit⟩ : ∃ others last, (t.head, t.hash (t.key new)) ::
      t.bucket nodes (t.hash (t.key new)) = others ++ [last] :=
    ⟨_, _, (List.dropLast_append_getLast (List.cons_ne_nil _ _)).symm⟩
  have hlast : last ∈ (t.head, t.hash (t.key new)) :: t.bucket nodes (t.hash (t.key new)) :=
    hsplit ▸ List.mem_append_right others List.mem_cons_self
  obtain ⟨next, hcell⟩ := hchain.cell_of_mem hlast
  have hfuel : others.length < heap.fresh := by
    have hle := h.length_chain_le hi
    rw [hsplit, List.length_append, List.length_singleton] at hle
    omega
  have hsearch : heap.search (fun x ↦ t.key x = t.key new) heap.fresh (t.hash (t.key new))
      (some (t.hash (t.key new))) = some (.missing last.2) := by
    refine Heap.search_missing (hsplit ▸ hchain) (fun q hq ↦ ?_) hfuel
    simpa using hnone q (hsplit ▸ hq)
  exact ⟨hkey, _, by simp [register, hsearch, hcell], h.link hkey hsplit⟩

/-- A registration keeps the table and is noted in its nodes. -/
theorem Holds.register (h : t.Holds heap nodes) (new : α) (hagain : ∀ x, t.key (again x) = t.key x)
    (hhead : t.key t.head ≠ t.key new) :
    ∃ heap', t.register again new heap = some heap' ∧ t.Holds heap' (t.noted again new nodes) := by
  rw [noted]
  cases hq : ((t.head, t.hash (t.key new)) :: t.bucket nodes (t.hash (t.key new))).find?
      (fun q ↦ t.key q.1 = t.key new) with
  | none =>
    obtain ⟨hkey, heap', hstep, hholds⟩ := h.register_missing again hq
    rw [if_neg hkey]
    exact ⟨heap', hstep, hholds⟩
  | some q =>
    obtain ⟨hkey, heap', hstep, hholds⟩ := h.register_found hagain hhead hq
    rw [if_pos hkey]
    exact ⟨heap', hstep, hholds⟩

end

/-! ### All chains -/

/-- The parts of a list by a number are the list in another order. -/
theorem perm_parts {β : Type} (f : β → Nat) (l : List β) (n : Nat) :
    ((List.range n).flatMap fun i ↦ l.filter (f · = i)).Perm (l.filter (f · < n)) := by
  induction n with
  | zero => simp
  | succ n ih =>
    have hbelow : (l.filter (f · < n + 1)).filter (f · < n) = l.filter (f · < n) := by
      rw [List.filter_filter]
      refine List.filter_congr fun x _ ↦ ?_
      simpa using Nat.lt_succ_of_lt
    have hlast : (l.filter (f · < n + 1)).filter (fun x ↦ !decide (f x < n)) =
        l.filter (f · = n) := by
      rw [List.filter_filter]
      refine List.filter_congr fun x _ ↦ ?_
      rw [Bool.eq_iff_iff]
      simp only [Bool.and_eq_true, Bool.not_eq_true', decide_eq_false_iff_not, decide_eq_true_eq]
      omega
    have hsplit := List.filter_append_perm (f · < n) (l.filter (f · < n + 1))
    rw [hbelow, hlast] at hsplit
    rw [List.range_succ, List.flatMap_append, List.flatMap_singleton]
    exact (ih.append_right _).trans hsplit

/-- The buckets are the nodes in another order. -/
theorem perm_buckets (nodes : List α) :
    ((List.range t.size).flatMap (t.bucket nodes)).Perm (nodes.zipIdx t.size) := by
  have hall : (nodes.zipIdx t.size).filter (fun q ↦ t.hash (t.key q.1) < t.size) =
      nodes.zipIdx t.size :=
    List.filter_eq_self.mpr fun q _ ↦ decide_eq_true (t.hash_lt _)
  have hparts := perm_parts (fun q : α × Nat ↦ t.hash (t.key q.1)) (nodes.zipIdx t.size) t.size
  rw [hall] at hparts
  exact hparts

/-- A fold that leaves the heads out is one of the nodes, in the order of the buckets. -/
theorem Holds.foldAll (h : t.Holds heap nodes) {step : σ → α → σ} (hhead : ∀ s, step s t.head = s)
    (s : σ) : ∃ order : List α, order.Perm nodes ∧
      t.foldAll step s heap = some (order.foldl step s) := by
  have hupto : ∀ is : List Nat, (∀ i ∈ is, i < t.size) → ∀ s : σ,
      is.foldlM (fun s i ↦ heap.fold step heap.fresh s (some i)) s =
        some (((is.flatMap (t.bucket nodes)).map Prod.fst).foldl step s) := by
    intro is his
    induction is with
    | nil => exact fun s ↦ rfl
    | cons i is ih =>
      intro s
      obtain ⟨hi, his⟩ := List.forall_mem_cons.mp his
      have hfold := Heap.fold_chain step (s := s) (h.chain i hi) (h.length_chain_le hi)
      rw [List.map_cons, List.foldl_cons, hhead] at hfold
      rw [List.foldlM_cons, hfold, List.flatMap_cons, List.map_append, List.foldl_append]
      exact ih his _
  refine ⟨((List.range t.size).flatMap (t.bucket nodes)).map Prod.fst, ?_,
    hupto _ (fun i hi ↦ List.mem_range.mp hi) s⟩
  have hperm := (perm_buckets (t := t) nodes).map Prod.fst
  rwa [List.zipIdx_map_fst] at hperm

theorem releaseBehind_chains (heap : Heap α) {is : List Nat}
    (hchain : ∀ i ∈ is, Chain heap.cell (some i) ((t.head, i) :: t.bucket nodes i))
    (hlength : ∀ i, (t.bucket nodes i).length ≤ heap.fresh) (his : ∀ i ∈ is, i < t.size)
    (hn : is.Nodup) : ∃ rest, heap.releaseBehind is =
      some (rest, (is.flatMap (t.bucket nodes)).map Prod.snd) := by
  induction is generalizing heap with
  | nil => exact ⟨heap, rfl⟩
  | cons i is ih =>
    obtain ⟨hi, his⟩ := List.forall_mem_cons.mp his
    obtain ⟨hnot, hn⟩ := List.nodup_cons.mp hn
    obtain ⟨⟨-, next, hcell, hbucket⟩, hchain⟩ := List.forall_mem_cons.mp hchain
    obtain ⟨rest, hrelease, hfresh, hothers⟩ :=
      Heap.release_chain hbucket (nodup_bucket i) (hlength i)
    have hkept : ∀ j ∈ is, Chain rest.cell (some j) ((t.head, j) :: t.bucket nodes j) := by
      intro j hj
      refine (hchain j hj).congr fun q hq ↦ ?_
      rw [hothers, if_neg fun hmem ↦ ?_]
      obtain ⟨r, hr, he⟩ := List.mem_map.mp hmem
      have hji : j ≠ i := fun he ↦ hnot (he ▸ hj)
      exact address_ne (his j hj) hi hji hq (List.mem_cons_of_mem _ hr) he.symm
    obtain ⟨last, hlast⟩ := ih rest hkept (fun j ↦ hfresh ▸ hlength j) his hn
    refine ⟨last, ?_⟩
    simp [Heap.releaseBehind, hcell, hrelease, hlast]

/-- The release takes each node once. -/
theorem Holds.releaseBehind (h : t.Holds heap nodes) : ∃ rest freed,
    heap.releaseBehind (List.range t.size) = some (rest, freed) ∧
      freed.Perm (List.range' t.size (heap.fresh - t.size)) := by
  have hlength : ∀ i, (t.bucket nodes i).length ≤ heap.fresh := by
    intro i
    have hle : (t.bucket nodes i).length ≤ nodes.length :=
      Nat.le_trans (List.length_filter_le _ _) (Nat.le_of_eq List.length_zipIdx)
    rw [h.fresh]
    omega
  obtain ⟨rest, hrelease⟩ := releaseBehind_chains heap
    (fun i hi ↦ h.chain i (List.mem_range.mp hi)) hlength (fun i hi ↦ List.mem_range.mp hi)
    List.nodup_range
  refine ⟨rest, _, hrelease, ?_⟩
  have hperm := (perm_buckets (t := t) nodes).map Prod.snd
  rw [List.zipIdx_map_snd] at hperm
  rwa [h.fresh, Nat.add_sub_cancel_left]

end TableLayout

end LibGTop.Base
