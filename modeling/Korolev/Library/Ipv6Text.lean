import Mathlib.Data.List.Basic
import Mathlib.Tactic.Common

set_option relaxedAutoImplicit false
set_option autoImplicit false

/-!
# The text form of IPv6 addresses

An address is eight groups of 16 bits. Its text form (RFC 4291, section 2.2, forms 1 and 2) has a
group as one to four hexadecimal digits, and a colon between two groups; at most once, `::` stands
for one or more groups that are zero.

Texts are lists of ASCII bytes. The parser cuts a text at its first `::`; a second one, or a colon
at an end, leaves an empty group on one of the sides, which is not a group.

## Main definitions

* `Ipv6Text.group` — the value of one to four hexadecimal digits.
* `Ipv6Text.parse` — the eight groups of a text.
* `Ipv6Text.join` — groups with a colon between two of them.

## Main results

* `Ipv6Text.parse_join`, `Ipv6Text.parse_elided` — the two forms of valid texts.
* `Ipv6Text.parse_leading`, `Ipv6Text.parse_trailing` — a single colon at an end.
-/

namespace Ipv6Text

/-- `':'` -/
def colon : UInt8 := 0x3a

/-- The value of a hexadecimal digit. -/
def hexDigit (c : UInt8) : Option ℕ :=
  if 0x30 ≤ c ∧ c ≤ 0x39 then some (c.toNat - 0x30)
  else if 0x61 ≤ c ∧ c ≤ 0x66 then some (c.toNat - 0x57)
  else if 0x41 ≤ c ∧ c ≤ 0x46 then some (c.toNat - 0x37)
  else none

/-- The value of hexadecimal digits behind a number. -/
def number (n : ℕ) : List UInt8 → Option ℕ
  | [] => some n
  | c :: s => (hexDigit c).bind fun d => number (16 * n + d) s

/-- The value of a group. -/
def group (s : List UInt8) : Option ℕ := if s = [] ∨ 4 < s.length then none else number 0 s

/-- The values of the groups of a side, which is empty or has colons between its groups. -/
def groups (s : List UInt8) : Option (List ℕ) :=
  if s = [] then some [] else (s.splitOn colon).mapM group

/-- The text before and behind the first `::`. -/
def cut : List UInt8 → Option (List UInt8 × List UInt8)
  | [] => none
  | [_] => none
  | c :: d :: s =>
    if c = colon ∧ d = colon then some ([], s) else (cut (d :: s)).map fun p => (c :: p.1, p.2)

/-- The eight groups of a text. -/
def parse (s : List UInt8) : Option (List ℕ) :=
  match cut s with
  | none => (groups s).bind fun gs => if gs.length = 8 then some gs else none
  | some (l, r) => (groups l).bind fun gs => (groups r).bind fun hs =>
    if gs.length + hs.length ≤ 7 then
      some (gs ++ List.replicate (8 - (gs.length + hs.length)) 0 ++ hs)
    else none

/-! ## Groups -/

lemma notMem_of_number {c : UInt8} (hc : hexDigit c = none) {s : List UInt8} :
    ∀ {n v : ℕ}, number n s = some v → c ∉ s := by
  induction s with
  | nil => simp
  | cons b s ih =>
    intro n v h hmem
    rw [number, Option.bind_eq_some_iff] at h
    obtain ⟨d, hd, hrest⟩ := h
    rcases List.mem_cons.mp hmem with rfl | hmem
    · simp [hc] at hd
    · exact ih hrest hmem

/-- A group has digits only. -/
lemma notMem_of_group {c : UInt8} (hc : hexDigit c = none) {s : List UInt8} {v : ℕ}
    (h : group s = some v) : c ∉ s := by
  rw [group] at h
  split_ifs at h
  exact notMem_of_number hc h

/-- A group is not empty and has no colon. -/
lemma ne_nil_of_group {s : List UInt8} {v : ℕ} (h : group s = some v) : s ≠ [] ∧ colon ∉ s := by
  refine ⟨fun hnil => ?_, notMem_of_group rfl h⟩
  simp [group, hnil] at h

/-! ## Texts -/

section Texts

variable {α : Type*} (f : α → List UInt8) (val : α → ℕ)

/-- Groups, with a colon between two of them. -/
def join (ws : List α) : List UInt8 := [colon].intercalate (ws.map f)

@[simp] lemma join_nil : join f [] = [] := rfl

lemma join_singleton (w : α) : join f [w] = f w := by
  rw [join, List.map_cons, List.map_nil, List.intercalate_singleton]

lemma join_cons_cons (w v : α) (ws : List α) :
    join f (w :: v :: ws) = f w ++ colon :: join f (v :: ws) := by
  rw [join, List.map_cons, List.map_cons, List.intercalate_cons_cons, List.append_assoc]
  rfl

/-- Groups with a colon behind each. -/
lemma flatMap_append_colon {ws : List α} (hne : ws ≠ []) :
    (ws.flatMap fun w => f w ++ [colon]) = join f ws ++ [colon] := by
  induction ws with
  | nil => exact absurd rfl hne
  | cons w ws ih =>
    cases ws with
    | nil => simp [join_singleton]
    | cons v ws =>
      rw [List.flatMap_cons, ih (by simp), join_cons_cons, List.append_assoc, List.append_assoc]
      rfl

variable {f val} (hf : ∀ w, group (f w) = some (val w))

include hf

/-- A text of groups starts with a digit. -/
lemma join_cons_eq (w : α) (ws : List α) : ∃ c s, join f (w :: ws) = c :: s ∧ c ≠ colon := by
  obtain ⟨hne, hcolon⟩ := ne_nil_of_group (hf w)
  obtain ⟨c, s, hs⟩ := List.exists_cons_of_ne_nil hne
  have hc : c ≠ colon := fun h => hcolon (by simp [hs, h])
  cases ws with
  | nil => exact ⟨c, s, by rw [join_singleton, hs], hc⟩
  | cons v ws => exact ⟨c, s ++ colon :: join f (v :: ws), by rw [join_cons_cons, hs]; rfl, hc⟩

lemma mapM_group (ws : List α) : (ws.map f).mapM group = some (ws.map val) := by
  induction ws with
  | nil => rfl
  | cons w ws ih => simp [hf, ih]

lemma splitOn_join {ws : List α} (hne : ws ≠ []) : (join f ws).splitOn colon = ws.map f := by
  refine List.splitOn_intercalate colon (fun g hg => ?_) (by simpa using hne)
  obtain ⟨w, -, rfl⟩ := List.mem_map.mp hg
  exact (ne_nil_of_group (hf w)).2

lemma groups_join (ws : List α) : groups (join f ws) = some (ws.map val) := by
  cases ws with
  | nil => rfl
  | cons w ws =>
    obtain ⟨c, s, hs, -⟩ := join_cons_eq hf w ws
    rw [groups, if_neg (by rw [hs]; simp), splitOn_join hf (by simp), mapM_group hf]

omit hf in
/-- The search passes a text without a colon. -/
lemma cut_append_of_notMem {g : List UInt8} (hg : colon ∉ g) (t : List UInt8) :
    cut (g ++ t) = (cut t).map fun p => (g ++ p.1, p.2) := by
  induction g with
  | nil => simp
  | cons c g ih =>
    have hc : c ≠ colon := fun h => hg (by simp [h])
    have hg : colon ∉ g := fun h => hg (by simp [h])
    have hstep : cut (c :: (g ++ t)) = (cut (g ++ t)).map fun p => (c :: p.1, p.2) := by
      cases g ++ t with
      | nil => rfl
      | cons d s => rw [cut, if_neg fun h => hc h.1]
    rw [List.cons_append, hstep, ih hg, Option.map_map]
    rfl

/-- The search passes a single colon. -/
lemma cut_colon_join (w : α) (ws : List α) (t : List UInt8) :
    cut (colon :: (join f (w :: ws) ++ t)) =
      (cut (join f (w :: ws) ++ t)).map fun p => (colon :: p.1, p.2) := by
  obtain ⟨c, s, hs, hc⟩ := join_cons_eq hf w ws
  rw [hs, List.cons_append, cut, if_neg fun h => hc h.2]

/-- The search passes groups. -/
lemma cut_join_append (ws : List α) (t : List UInt8) :
    cut (join f ws ++ t) = (cut t).map fun p => (join f ws ++ p.1, p.2) := by
  induction ws with
  | nil => simp
  | cons w ws ih =>
    have hw := (ne_nil_of_group (hf w)).2
    cases ws with
    | nil => rw [join_singleton, cut_append_of_notMem hw]
    | cons v ws =>
      rw [join_cons_cons, List.append_assoc, List.cons_append, cut_append_of_notMem hw,
        cut_colon_join hf, ih, Option.map_map, Option.map_map]
      simp [Function.comp_def]

lemma cut_join (ws : List α) : cut (join f ws) = none := by
  have h := cut_join_append hf ws []
  rwa [List.append_nil] at h

/-- **Eight groups.** -/
lemma parse_join {ws : List α} (hlen : ws.length = 8) :
    parse (join f ws) = some (ws.map val) := by
  rw [parse, cut_join hf, groups_join hf]
  simp [hlen]

/-- **Groups around `::`.** -/
lemma parse_elided {l r : List α} (hlen : l.length + r.length ≤ 7) :
    parse (join f l ++ colon :: colon :: join f r) =
      some (l.map val ++ List.replicate (8 - (l.length + r.length)) 0 ++ r.map val) := by
  have hcut : cut (join f l ++ colon :: colon :: join f r) = some (join f l, join f r) := by
    rw [cut_join_append hf, cut, if_pos ⟨rfl, rfl⟩, Option.map_some, List.append_nil]
  rw [parse, hcut]
  simp [groups_join hf, hlen]

/-- A single colon in front. -/
lemma parse_leading (ws : List α) : parse (colon :: join f ws) = none := by
  have hcut : cut (colon :: join f ws) = none := by
    cases ws with
    | nil => rfl
    | cons w ws =>
      have h := cut_colon_join hf w ws []
      rwa [List.append_nil, cut_join hf, Option.map_none] at h
  have hgroups : groups (colon :: join f ws) = none := by
    rw [groups, if_neg (by simp)]
    have hsplit : (colon :: join f ws).splitOn colon = [] :: (join f ws).splitOn colon :=
      List.splitOn_append_cons_self_of_not_mem List.not_mem_nil (join f ws)
    rw [hsplit]
    simp [group]
  rw [parse, hcut, hgroups]
  rfl

/-- A single colon behind. -/
lemma parse_trailing (ws : List α) (hne : ws ≠ []) : parse (join f ws ++ [colon]) = none := by
  have hcut : cut (join f ws ++ [colon]) = none := by
    rw [cut_join_append hf]
    rfl
  have hgroups : groups (join f ws ++ [colon]) = none := by
    rw [groups, if_neg (by simp), List.splitOn_append_cons_self, splitOn_join hf hne,
      List.mapM_append, mapM_group hf]
    simp [group]
  rw [parse, hcut, hgroups]
  rfl

end Texts

end Ipv6Text
