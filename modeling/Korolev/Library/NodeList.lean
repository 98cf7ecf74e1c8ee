import Mathlib.Data.List.Nodup
import Mathlib.Data.Set.Basic
import Mathlib.Logic.Function.Basic
import Mathlib.Tactic.Common

set_option relaxedAutoImplicit false
set_option autoImplicit false

/-!
# Singly linked lists in a heap

A heap gives every node the next one, up to `null`. What lies behind a pointer is a list of nodes
if `null` is reached; such a list has no node twice, as the way from a node to `null` has one
length only. Several lists in one heap are kept apart by having no node in common: then a list can
be grown at its end without the others noticing.

Walks are bounded by a number of steps. They come to their end within the length of the list.

## Main definitions

* `NodeList.Nodes` — the nodes behind a pointer.
* `NodeList.last` — the walk to the last node.
* `NodeList.release` — the nodes in the order in which a recursive release gets to them.
* `NodeList.Separate` — lists without common nodes.

## Main results

* `NodeList.Nodes.unique`, `NodeList.Nodes.nodup` — a list of nodes is determined by its pointer,
  and acyclic.
* `NodeList.Nodes.append` — a node linked behind the last one.
* `NodeList.last_eq`, `NodeList.release_eq` — the walks.
* `NodeList.Separate.push` — growing one of several lists.
-/

namespace NodeList

variable {α : Type*}

/-- The nodes from `p` on are those of the list. -/
def Nodes (next : α → α) (null : α) : α → List α → Prop
  | p, [] => p = null
  | p, q :: l => p = q ∧ q ≠ null ∧ Nodes next null (next q) l

section Nodes

variable {next next' : α → α} {null p a e : α} {l l' : List α}

@[simp] lemma nodes_nil : Nodes next null p [] ↔ p = null := Iff.rfl

@[simp] lemma nodes_cons {q : α} :
    Nodes next null p (q :: l) ↔ p = q ∧ q ≠ null ∧ Nodes next null (next q) l := Iff.rfl

/-- There are no nodes iff the pointer is `null`. -/
lemma Nodes.eq_nil_iff (h : Nodes next null p l) : l = [] ↔ p = null := by
  cases l with
  | nil => exact iff_of_true rfl h
  | cons q l =>
    obtain ⟨rfl, hne, -⟩ := h
    exact iff_of_false (by simp) hne

/-- **The nodes behind a pointer are determined by it.** -/
lemma Nodes.unique (h : Nodes next null p l) (h' : Nodes next null p l') : l = l' := by
  induction l generalizing p l' with
  | nil => exact (h'.eq_nil_iff.mpr h).symm
  | cons q l ih =>
    cases l' with
    | nil => exact absurd (h.eq_nil_iff.mpr h') (by simp)
    | cons q' l' =>
      obtain ⟨rfl, -, hrest⟩ := h
      obtain ⟨rfl, -, hrest'⟩ := h'
      rw [ih hrest hrest']

/-- From a node of the list on, there are the nodes behind it. -/
lemma Nodes.of_mem (h : Nodes next null p l) {q : α} (hq : q ∈ l) :
    ∃ l', Nodes next null q l' ∧ l'.length ≤ l.length := by
  induction l generalizing p with
  | nil => exact absurd hq List.not_mem_nil
  | cons b l ih =>
    rcases List.mem_cons.mp hq with rfl | hq
    · obtain ⟨rfl, hne, hrest⟩ := h
      exact ⟨p :: l, ⟨rfl, hne, hrest⟩, le_rfl⟩
    · obtain ⟨l', hl', hlen⟩ := ih h.2.2 hq
      exact ⟨l', hl', hlen.trans (Nat.le_succ _)⟩

/-- **A list of nodes is acyclic.** A node that came twice would have two ways to `null`, one
longer than the other. -/
lemma Nodes.nodup (h : Nodes next null p l) : l.Nodup := by
  induction l generalizing p with
  | nil => exact List.nodup_nil
  | cons q l ih =>
    obtain ⟨rfl, hne, hrest⟩ := h
    refine List.nodup_cons.mpr ⟨fun hmem => ?_, ih hrest⟩
    obtain ⟨l', hl', hlen⟩ := hrest.of_mem hmem
    have hfull : Nodes next null p (p :: l) := ⟨rfl, hne, hrest⟩
    rw [hl'.unique hfull, List.length_cons] at hlen
    omega

/-- The nodes behind a pointer depend on their own links only. -/
lemma Nodes.congr (h : Nodes next null p l) (heq : ∀ q ∈ l, next' q = next q) :
    Nodes next' null p l := by
  induction l generalizing p with
  | nil => exact h
  | cons q l ih =>
    obtain ⟨hp, hne, hrest⟩ := h
    have hfst := heq q List.mem_cons_self
    exact ⟨hp, hne, hfst ▸ ih hrest fun q hq => heq q (List.mem_cons_of_mem _ hq)⟩

variable [DecidableEq α]

/-- **A node linked behind the last one.** -/
lemma Nodes.append (h : Nodes next null p (l ++ [e])) (hnull : a ≠ null) (ha : a ∉ l ++ [e])
    (hend : next a = null) : Nodes (Function.update next e a) null p (l ++ [e] ++ [a]) := by
  have hae : a ≠ e := fun hae => ha (by simp [hae])
  induction l generalizing p with
  | nil =>
    obtain ⟨hp, hne, -⟩ := h
    refine ⟨hp, hne, ?_⟩
    rw [Function.update_self]
    refine ⟨rfl, hnull, ?_⟩
    rw [Function.update_of_ne hae]
    exact hend
  | cons q l ih =>
    have hnodup := h.nodup
    obtain ⟨hp, hne, hrest⟩ := h
    have hqe : q ≠ e := fun hqe => (List.nodup_cons.mp hnodup).1 (by simp [hqe])
    refine ⟨hp, hne, ?_⟩
    rw [Function.update_of_ne hqe]
    exact ih hrest fun hmem => ha (List.mem_cons_of_mem _ hmem)

end Nodes

/-! ## Walks -/

section Walks

variable [DecidableEq α] (next : α → α) (null : α)

/-- `while(p->next) p = p->next;`, if it ends within `n` tests. -/
def last : (n : ℕ) → α → Option α
  | 0, _ => none
  | n + 1, p => if next p ≠ null then last n (next p) else some p

/-- The nodes in the order in which a function that calls itself for `p->next` first, and releases
`p` then, gets to them; if it is called `n` times at most. -/
def release : (n : ℕ) → α → Option (List α)
  | 0, _ => none
  | n + 1, p => if next p ≠ null then (release n (next p)).map (· ++ [p]) else some [p]

variable {next null} {p e : α} {l : List α}

/-- The walk ends at the last node. -/
lemma last_eq (h : Nodes next null p (l ++ [e])) {n : ℕ} (hn : l.length < n) :
    last next null n p = some e := by
  induction l generalizing p n with
  | nil =>
    obtain ⟨n, rfl⟩ : ∃ m, n = m + 1 := ⟨n - 1, by simp at hn; omega⟩
    obtain ⟨rfl, -, hend⟩ := h
    rw [last, if_neg (not_not.mpr (nodes_nil.mp hend))]
  | cons q l ih =>
    obtain ⟨n, rfl⟩ : ∃ m, n = m + 1 := ⟨n - 1, by simp at hn; omega⟩
    obtain ⟨rfl, -, hrest⟩ := h
    have hne : next p ≠ null := fun hnull => by
      have hnil := hrest.eq_nil_iff.mpr hnull
      simp at hnil
    rw [last, if_pos hne]
    exact ih hrest (by simp at hn; omega)

/-- The release gets to every node, the last one first. -/
lemma release_eq (h : Nodes next null p l) (hne : l ≠ []) {n : ℕ} (hn : l.length ≤ n) :
    release next null n p = some l.reverse := by
  induction l generalizing p n with
  | nil => exact absurd rfl hne
  | cons q l ih =>
    obtain ⟨n, rfl⟩ : ∃ m, n = m + 1 := ⟨n - 1, by simp at hn; omega⟩
    obtain ⟨rfl, -, hrest⟩ := h
    rw [release, List.reverse_cons]
    by_cases hnull : next p = null
    · rw [if_neg (not_not.mpr hnull), hrest.eq_nil_iff.mpr hnull]
      rfl
    · rw [if_pos hnull, ih hrest (mt hrest.eq_nil_iff.mp hnull) (by simp at hn; omega)]
      rfl

end Walks

/-! ## Several lists -/

section Separate

variable {ι : Type*} {next : α → α} {null : α} {D : Set ι} {head : ι → α} {nodes : ι → List α}

/-- The lists with the given heads, which have no node in common. -/
structure Separate (next : α → α) (null : α) (D : Set ι) (head : ι → α) (nodes : ι → List α) :
    Prop where
  chain : ∀ d ∈ D, Nodes next null (head d) (nodes d)
  disjoint : ∀ d ∈ D, ∀ d' ∈ D, d ≠ d' → (nodes d).Disjoint (nodes d')

/-- Links of other nodes do not matter. -/
lemma Separate.congr (h : Separate next null D head nodes) {next' : α → α}
    (heq : ∀ d ∈ D, ∀ q ∈ nodes d, next' q = next q) : Separate next' null D head nodes :=
  ⟨fun d hd => (h.chain d hd).congr (heq d hd), h.disjoint⟩

/-- Some of the lists. -/
lemma Separate.mono (h : Separate next null D head nodes) {E : Set ι} (hsub : ∀ d ∈ E, d ∈ D)
    {head' : ι → α} (heq : ∀ d ∈ E, head' d = head d) : Separate next null E head' nodes :=
  ⟨fun d hd => heq d hd ▸ h.chain d (hsub d hd),
    fun d hd d' hd' => h.disjoint d (hsub d hd) d' (hsub d' hd')⟩

variable [DecidableEq ι]

/-- No list has a node in common with one that was grown by a new node. -/
lemma Separate.disjoint_push (h : Separate next null D head nodes) (d : ι) {a : α}
    (ha : ∀ d ∈ D, a ∉ nodes d) : ∀ c ∈ D, ∀ c' ∈ D, c ≠ c' →
      (Function.update nodes d (nodes d ++ [a]) c).Disjoint
        (Function.update nodes d (nodes d ++ [a]) c') := by
  intro c hc c' hc' hne
  by_cases hcd : c = d
  · subst hcd
    rw [Function.update_self, Function.update_of_ne hne.symm, List.disjoint_append_left]
    exact ⟨h.disjoint c hc c' hc' hne, by simpa using ha c' hc'⟩
  · rw [Function.update_of_ne hcd]
    by_cases hcd' : c' = d
    · subst hcd'
      rw [Function.update_self, List.disjoint_append_right]
      exact ⟨h.disjoint c hc c' hc' hne, by simpa using ha c hc⟩
    · rw [Function.update_of_ne hcd']
      exact h.disjoint c hc c' hc' hne

/-- **Growing one of several lists.** The new node becomes the head of an empty list. -/
lemma Separate.push_nil (h : Separate next null D head nodes) {d : ι} (hnil : nodes d = [])
    {a : α} (hnull : a ≠ null) (ha : ∀ d ∈ D, a ∉ nodes d) (hend : next a = null) :
    Separate next null D (Function.update head d a)
      (Function.update nodes d (nodes d ++ [a])) := by
  refine ⟨fun c hc => ?_, h.disjoint_push d ha⟩
  by_cases hcd : c = d
  · subst hcd
    rw [Function.update_self, Function.update_self, hnil]
    exact ⟨rfl, hnull, hend⟩
  · rw [Function.update_of_ne hcd, Function.update_of_ne hcd]
    exact h.chain c hc

/-- **Growing one of several lists.** The new node is linked behind the last one. -/
lemma Separate.push [DecidableEq α] (h : Separate next null D head nodes) {d : ι} (hd : d ∈ D)
    {l : List α} {e : α} (hlast : nodes d = l ++ [e]) {a : α} (hnull : a ≠ null)
    (ha : ∀ d ∈ D, a ∉ nodes d) (hend : next a = null) :
    Separate (Function.update next e a) null D head
      (Function.update nodes d (nodes d ++ [a])) := by
  have he : e ∈ nodes d := by simp [hlast]
  refine ⟨fun c hc => ?_, h.disjoint_push d ha⟩
  by_cases hcd : c = d
  · subst hcd
    have hchain := h.chain c hc
    rw [Function.update_self, hlast]
    rw [hlast] at hchain
    exact hchain.append hnull (hlast ▸ ha c hc) hend
  · rw [Function.update_of_ne hcd]
    refine (h.chain c hc).congr fun q hq => Function.update_of_ne (fun hqe => ?_) _ _
    exact h.disjoint c hc d hd hcd hq (hqe ▸ he)

end Separate

end NodeList
