/-
# Maps kept in key order

A finite map as the list of its entries, keys strictly increasing, with that order as a field.
The two ways in are the ones that never overwrite and those that keep the keys: `emplace` adds an
entry for a key that has none, and `mapValues` changes values only.  Iterating over the map is
iterating over `entries`.
-/
import Mathlib.Order.Lattice
import Mathlib.Data.List.Basic

namespace Logosctl.Library

/-- A map from `α` to `β` whose entries are in strictly increasing key order. -/
@[ext] structure OrderedMap (α β : Type) [LinearOrder α] where
  entries : List (α × β)
  sorted : entries.Pairwise (fun a b => a.1 < b.1)
  deriving DecidableEq

namespace OrderedMap

variable {α β γ : Type} [LinearOrder α]

/-! ## 1. Entries -/

def empty : OrderedMap α β := ⟨[], List.Pairwise.nil⟩

instance : EmptyCollection (OrderedMap α β) := ⟨empty⟩

instance : Inhabited (OrderedMap α β) := ⟨empty⟩

@[simp] theorem entries_empty : (∅ : OrderedMap α β).entries = [] := rfl

def keys (m : OrderedMap α β) : List α := m.entries.map Prod.fst

/-- `find`. -/
def get? (k : α) (m : OrderedMap α β) : Option β := m.entries.lookup k

theorem lookup_isSome_of_mem {k : α} {v : β} {es : List (α × β)} (h : (k, v) ∈ es) :
    ∃ w, es.lookup k = some w ∧ (k, w) ∈ es := by
  induction es with
  | nil => cases h
  | cons d ds ih =>
    obtain ⟨k', v'⟩ := d
    by_cases hk : k = k'
    · subst hk
      exact ⟨v', by rw [List.lookup_cons, beq_self_eq_true], List.mem_cons_self⟩
    · have hmem : (k, v) ∈ ds := by
        rcases List.mem_cons.mp h with heq | hmem
        · exact absurd (Prod.mk.inj heq).1 hk
        · exact hmem
      obtain ⟨w, hlookup, hw⟩ := ih hmem
      refine ⟨w, ?_, List.mem_cons_of_mem _ hw⟩
      rw [List.lookup_cons, beq_eq_false_iff_ne.mpr hk]
      exact hlookup

theorem mem_of_get? {k : α} {v : β} {m : OrderedMap α β} (h : m.get? k = some v) :
    (k, v) ∈ m.entries := by
  obtain ⟨front, rest, heq, -⟩ := List.lookup_eq_some_iff.mp h
  rw [heq]
  exact List.mem_append_right _ List.mem_cons_self

/-- A key is found, with an entry. -/
theorem exists_get? {k : α} {m : OrderedMap α β} (h : k ∈ m.keys) :
    ∃ v, m.get? k = some v ∧ (k, v) ∈ m.entries := by
  obtain ⟨⟨k', v⟩, hmem, rfl⟩ := List.mem_map.mp h
  exact lookup_isSome_of_mem hmem

/-! ## 2. Adding an entry -/

/-- The entries with one more, for a key that has none yet. -/
def emplaceEntry (k : α) (v : β) : List (α × β) → List (α × β)
  | [] => [(k, v)]
  | e :: es => if k < e.1 then (k, v) :: e :: es else if k = e.1 then e :: es
    else e :: emplaceEntry k v es

theorem mem_emplaceEntry {k : α} {v : β} {e : α × β} {es : List (α × β)}
    (h : e ∈ emplaceEntry k v es) : e = (k, v) ∨ e ∈ es := by
  induction es with
  | nil => exact Or.inl (List.mem_singleton.mp h)
  | cons d ds ih =>
    unfold emplaceEntry at h
    split_ifs at h
    · exact List.mem_cons.mp h
    · exact Or.inr h
    · rcases List.mem_cons.mp h with rfl | h
      · exact Or.inr List.mem_cons_self
      · exact (ih h).imp_right (List.mem_cons_of_mem d)

theorem subset_emplaceEntry {k : α} {v : β} {es : List (α × β)} : es ⊆ emplaceEntry k v es := by
  induction es with
  | nil => exact List.nil_subset _
  | cons d ds ih =>
    unfold emplaceEntry
    split_ifs
    · exact List.subset_cons_self _ _
    · exact List.Subset.refl _
    · exact List.cons_subset_cons d ih

theorem sorted_emplaceEntry {k : α} {v : β} {es : List (α × β)}
    (h : es.Pairwise (fun a b => a.1 < b.1)) :
    (emplaceEntry k v es).Pairwise (fun a b => a.1 < b.1) := by
  induction es with
  | nil => exact List.pairwise_singleton _ _
  | cons d ds ih =>
    obtain ⟨hd, hds⟩ := List.pairwise_cons.mp h
    unfold emplaceEntry
    split_ifs with hlt heq
    · refine List.pairwise_cons.mpr ⟨?_, h⟩
      intro e he
      rcases List.mem_cons.mp he with rfl | he
      · exact hlt
      · exact hlt.trans (hd e he)
    · exact h
    · refine List.pairwise_cons.mpr ⟨?_, ih hds⟩
      intro e he
      rcases mem_emplaceEntry he with rfl | he
      · exact lt_of_le_of_ne (not_lt.mp hlt) (Ne.symm heq)
      · exact hd e he

theorem key_mem_emplaceEntry {k : α} {v : β} {es : List (α × β)} :
    k ∈ (emplaceEntry k v es).map Prod.fst := by
  induction es with
  | nil => exact List.mem_singleton_self _
  | cons d ds ih =>
    unfold emplaceEntry
    split_ifs with hlt heq
    · exact List.mem_cons_self
    · exact heq ▸ List.mem_cons_self
    · exact List.mem_cons_of_mem _ ih

/-- With an entry for the key, nothing is added. -/
theorem emplaceEntry_of_mem {k : α} {v : β} {es : List (α × β)}
    (h : es.Pairwise (fun a b => a.1 < b.1)) (hk : k ∈ es.map Prod.fst) :
    emplaceEntry k v es = es := by
  induction es with
  | nil => cases hk
  | cons d ds ih =>
    obtain ⟨hd, hds⟩ := List.pairwise_cons.mp h
    have hle : d.1 ≤ k := by
      rcases List.mem_cons.mp hk with rfl | hk
      · exact le_rfl
      · obtain ⟨e, he, rfl⟩ := List.mem_map.mp hk
        exact (hd e he).le
    unfold emplaceEntry
    rw [if_neg (not_lt.mpr hle)]
    split_ifs with heq
    · rfl
    · rw [ih hds]
      exact (List.mem_cons.mp hk).resolve_left heq

/-- `emplace`: an entry for `k`, unless it has one. -/
def emplace (k : α) (v : β) (m : OrderedMap α β) : OrderedMap α β :=
  ⟨emplaceEntry k v m.entries, sorted_emplaceEntry m.sorted⟩

theorem emplace_of_mem {k : α} {v : β} {m : OrderedMap α β} (h : k ∈ m.keys) :
    m.emplace k v = m := OrderedMap.ext (emplaceEntry_of_mem m.sorted h)

/-- An entry after an `emplace` was there before, or is the one added. -/
theorem mem_entries_emplace {k : α} {v : β} {m : OrderedMap α β} {e : α × β}
    (h : e ∈ (m.emplace k v).entries) : (k ∉ m.keys ∧ e = (k, v)) ∨ e ∈ m.entries := by
  by_cases hk : k ∈ m.keys
  · rw [emplace_of_mem hk] at h
    exact Or.inr h
  · exact (mem_emplaceEntry h).imp_left fun heq => ⟨hk, heq⟩

theorem entries_subset_emplace {k : α} {v : β} {m : OrderedMap α β} :
    m.entries ⊆ (m.emplace k v).entries := subset_emplaceEntry

theorem keys_subset_emplace {k : α} {v : β} {m : OrderedMap α β} :
    m.keys ⊆ (m.emplace k v).keys := List.map_subset _ entries_subset_emplace

theorem mem_keys_emplace {k : α} {v : β} {m : OrderedMap α β} : k ∈ (m.emplace k v).keys :=
  key_mem_emplaceEntry

theorem lookup_eq_none_of_lt {k : α} {es : List (α × β)} (h : ∀ e ∈ es, k < e.1) :
    es.lookup k = none := by
  induction es with
  | nil => rfl
  | cons d ds ih =>
    have hd : (k == d.1) = false := beq_eq_false_iff_ne.mpr (h d List.mem_cons_self).ne
    rw [List.lookup_cons, hd]
    exact ih fun e he => h e (List.mem_cons_of_mem d he)

theorem lookup_emplaceEntry {k k' : α} {v : β} {es : List (α × β)}
    (h : es.Pairwise (fun a b => a.1 < b.1)) : (emplaceEntry k v es).lookup k' =
      if k' = k then some ((es.lookup k).getD v) else es.lookup k' := by
  induction es with
  | nil =>
    rw [emplaceEntry, List.lookup_cons]
    by_cases hk : k' = k
    · rw [if_pos hk, beq_iff_eq.mpr hk]
      rfl
    · rw [if_neg hk, beq_eq_false_iff_ne.mpr hk]
  | cons d ds ih =>
    obtain ⟨hd, hds⟩ := List.pairwise_cons.mp h
    by_cases hlt : k < d.1
    · have hnone : (d :: ds).lookup k = none := by
        refine lookup_eq_none_of_lt fun e he => ?_
        rcases List.mem_cons.mp he with rfl | he
        · exact hlt
        · exact hlt.trans (hd e he)
      rw [emplaceEntry, if_pos hlt, hnone, List.lookup_cons]
      by_cases hk : k' = k
      · rw [if_pos hk, beq_iff_eq.mpr hk]
        rfl
      · rw [if_neg hk, beq_eq_false_iff_ne.mpr hk]
    · by_cases heq : k = d.1
      · rw [emplaceEntry, if_neg hlt, if_pos heq, List.lookup_cons, List.lookup_cons,
          beq_iff_eq.mpr heq]
        by_cases hk : k' = k
        · rw [if_pos hk, beq_iff_eq.mpr (hk.trans heq)]
          rfl
        · rw [if_neg hk]
      · rw [emplaceEntry, if_neg hlt, if_neg heq, List.lookup_cons, ih hds, List.lookup_cons,
          List.lookup_cons, beq_eq_false_iff_ne.mpr heq]
        by_cases hk : k' = k
        · rw [if_pos hk, if_pos hk, hk, beq_eq_false_iff_ne.mpr heq]
        · rw [if_neg hk, if_neg hk]

/-- What is found after an `emplace`: the old value of the key if it had one. -/
theorem get?_emplace {k k' : α} {v : β} {m : OrderedMap α β} :
    (m.emplace k v).get? k' = if k' = k then some ((m.get? k).getD v) else m.get? k' :=
  lookup_emplaceEntry m.sorted

/-- Past every key there is, an entry goes to the end. -/
theorem emplaceEntry_past {k : α} {v : β} {es : List (α × β)} (h : ∀ e ∈ es, e.1 < k) :
    emplaceEntry k v es = es ++ [(k, v)] := by
  induction es with
  | nil => rfl
  | cons d ds ih =>
    have hd := h d List.mem_cons_self
    rw [emplaceEntry, if_neg (lt_asymm hd), if_neg hd.ne',
      ih fun e he => h e (List.mem_cons_of_mem d he)]
    rfl

/-! ## 3. Changing values, leaving entries out -/

/-- The map with every value changed. -/
def mapValues (f : β → γ) (m : OrderedMap α β) : OrderedMap α γ :=
  ⟨m.entries.map fun e => (e.1, f e.2), m.sorted.map _ fun _ _ h => h⟩

@[simp] theorem keys_mapValues {f : β → γ} {m : OrderedMap α β} :
    (m.mapValues f).keys = m.keys := by
  simp [keys, mapValues]

theorem mem_entries_mapValues {f : β → γ} {m : OrderedMap α β} {k : α} {w : γ} :
    (k, w) ∈ (m.mapValues f).entries ↔ ∃ v, (k, v) ∈ m.entries ∧ f v = w := by
  constructor
  · intro h
    obtain ⟨⟨k', v⟩, hv, heq⟩ := List.mem_map.mp h
    obtain ⟨rfl, rfl⟩ := Prod.mk.inj heq
    exact ⟨v, hv, rfl⟩
  · rintro ⟨v, hv, rfl⟩
    exact List.mem_map.mpr ⟨(k, v), hv, rfl⟩

theorem mapValues_mapValues {δ : Type} {f : β → γ} {g : γ → δ} {m : OrderedMap α β} :
    (m.mapValues f).mapValues g = m.mapValues (g ∘ f) :=
  OrderedMap.ext (by simp [mapValues])

/-- The map of the entries that have `p`. -/
def filter (p : α × β → Bool) (m : OrderedMap α β) : OrderedMap α β :=
  ⟨m.entries.filter p, m.sorted.filter p⟩

/-- When every entry has `p`, none is left out. -/
theorem filter_eq_self {p : α × β → Bool} {m : OrderedMap α β} :
    m.filter p = m ↔ ∀ e ∈ m.entries, p e = true := by
  rw [OrderedMap.ext_iff]
  exact List.filter_eq_self

/-! ## 4. Changing one value -/

/-- `map[k] = f(map[k])`, from `v` for a key that has no entry. -/
def update (k : α) (v : β) (f : β → β) (m : OrderedMap α β) : OrderedMap α β :=
  ⟨(m.emplace k v).entries.map fun e => (e.1, if e.1 = k then f e.2 else e.2),
    (m.emplace k v).sorted.map _ fun _ _ h => h⟩

/-- An entry after an `update` is the one changed, or was there before. -/
theorem mem_entries_update {k k' : α} {v w : β} {f : β → β} {m : OrderedMap α β}
    (h : (k', w) ∈ (m.update k v f).entries) :
    (k' = k ∧ ∃ w₀, w = f w₀ ∧ (w₀ = v ∨ (k, w₀) ∈ m.entries)) ∨ (k', w) ∈ m.entries := by
  obtain ⟨⟨k₀, w₀⟩, hmem, heq⟩ := List.mem_map.mp h
  obtain ⟨rfl, rfl⟩ := Prod.mk.inj heq
  have hmem := mem_entries_emplace hmem
  by_cases hk : k₀ = k
  · subst hk
    refine Or.inl ⟨rfl, w₀, if_pos rfl, hmem.imp_left ?_⟩
    rintro ⟨-, heq⟩
    exact (Prod.mk.inj heq).2
  · rw [if_neg hk]
    refine Or.inr (hmem.resolve_left ?_)
    rintro ⟨-, heq⟩
    exact hk (Prod.mk.inj heq).1

theorem lookup_map {δ : Type} {g : α → β → δ} {k : α} {es : List (α × β)} :
    (es.map fun e => (e.1, g e.1 e.2)).lookup k = (es.lookup k).map (g k) := by
  induction es with
  | nil => rfl
  | cons d ds ih =>
    rw [List.map_cons, List.lookup_cons, List.lookup_cons, ih]
    by_cases hk : k = d.1
    · rw [beq_iff_eq.mpr hk, hk]
      rfl
    · rw [beq_eq_false_iff_ne.mpr hk]

/-- What is found after an `update`. -/
theorem get?_update {k k' : α} {v : β} {f : β → β} {m : OrderedMap α β} :
    (m.update k v f).get? k' = if k' = k then some (f ((m.get? k).getD v)) else m.get? k' := by
  have hmap : (m.update k v f).get? k' =
      ((m.emplace k v).get? k').map fun w => if k' = k then f w else w :=
    @lookup_map α β _ β (fun key w => if key = k then f w else w) k' _
  rw [hmap, get?_emplace]
  split
  · rfl
  · rw [Option.map_id']

/-! ## 5. Maps to lists -/

/-- `map[k].push_back(x)`. -/
def push (k : α) (x : γ) (m : OrderedMap α (List γ)) : OrderedMap α (List γ) :=
  ⟨(m.emplace k []).entries.map fun e => (e.1, if e.1 = k then e.2 ++ [x] else e.2),
    (m.emplace k []).sorted.map _ fun _ _ h => h⟩

/-- A list after a `push` is the one pushed to, or was there before. -/
theorem mem_entries_push {k k' : α} {x : γ} {l : List γ} {m : OrderedMap α (List γ)}
    (h : (k', l) ∈ (m.push k x).entries) :
    (k' = k ∧ ∃ l₀, l = l₀ ++ [x] ∧ (l₀ = [] ∨ (k, l₀) ∈ m.entries)) ∨ (k', l) ∈ m.entries :=
  @mem_entries_update _ _ _ k k' [] l (fun l₀ => l₀ ++ [x]) m h

end OrderedMap

end Logosctl.Library
