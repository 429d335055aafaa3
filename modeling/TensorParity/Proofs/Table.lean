import Mathlib
import TensorParity.Proofs.Except
import TensorParity.Table

/-!
Lookup in tables, and tables built entry by entry. A table is rebuilt from its entries in any way
that puts them in ascending order.
-/
namespace TensorParity

namespace Table

variable {α β : Type}

@[ext]
theorem ext {t u : Table α} (h : t.entries = u.entries) : t = u := by
  cases t
  cases u
  simp only at h
  subst h
  rfl

@[simp]
theorem find?_empty (key : String) : (empty : Table α).find? key = none := rfl

theorem mem_keys_iff {t : Table α} {key : String} :
    key ∈ t.keys ↔ ∃ value, t.find? key = some value := by
  simp only [keys, find?, List.mem_map, Prod.exists, Option.map_eq_some_iff]
  constructor
  · rintro ⟨k, value, hmem, rfl⟩
    have hfound : (t.entries.find? fun entry => decide (entry.1 = k)).isSome = true := by
      rw [List.find?_isSome]
      exact ⟨(k, value), hmem, by simp⟩
    obtain ⟨entry, hentry⟩ := Option.isSome_iff_exists.mp hfound
    exact ⟨entry.2, entry.1, entry.2, hentry, rfl⟩
  · rintro ⟨value, k, v, hfound, rfl⟩
    have hkey : k = key := by simpa using List.find?_some hfound
    exact ⟨k, v, List.mem_of_find?_eq_some hfound, hkey⟩

/-- Keys at or above all of a list's keys go to its end. -/
theorem insertEntry_eq_append {key : String} {value : α} {entries : List (String × α)}
    (h : ∀ k ∈ entries.map (·.1), k < key) :
    insertEntry key value entries = entries ++ [(key, value)] := by
  induction entries with
  | nil => rfl
  | cons entry entries ih =>
    obtain ⟨k, v⟩ := entry
    have hk : k < key := h k (by simp)
    have hnot : ¬ key < k := fun hlt => String.lt_irrefl k (String.lt_trans hk hlt)
    rw [insertEntry, if_neg hnot, if_pos hk,
      ih fun k' hk' => h k' (by simp at hk' ⊢; exact Or.inr hk')]
    rfl

theorem eq_of_not_lt {key k : String} (h : ¬ key < k) (h' : ¬ k < key) : key = k :=
  String.le_antisymm (String.not_lt.mp h') (String.not_lt.mp h)

theorem mem_insertEntry {key : String} {value : α} {entries : List (String × α)}
    {entry : String × α}
    (h : entry ∈ insertEntry key value entries) : entry = (key, value) ∨ entry ∈ entries := by
  induction entries with
  | nil => simpa [insertEntry] using h
  | cons head entries ih => grind [insertEntry]

theorem find?_insertEntry (key k : String) (value : α) (entries : List (String × α)) :
    ((insertEntry key value entries).find? (·.1 = k)).map (·.2) =
      if k = key then some value else (entries.find? (·.1 = k)).map (·.2) := by
  induction entries with
  | nil => grind [insertEntry]
  | cons entry entries ih =>
    obtain ⟨k', v⟩ := entry
    unfold insertEntry
    split
    · grind
    · split
      · rename_i habove
        have hne : k' ≠ key := by
          rintro rfl
          exact String.lt_irrefl k' habove
        by_cases hk : k' = k
        · simp [hk, hk ▸ hne]
        · simpa [hk] using ih
      · rename_i hbelow habove
        have hkey := eq_of_not_lt hbelow habove
        grind

theorem find?_insert (t : Table α) (key k : String) (value : α) :
    (t.insert key value).find? k = if k = key then some value else t.find? k :=
  find?_insertEntry key k value t.entries

theorem nodup_keys (t : Table α) : t.keys.Nodup := by
  have hne {a b : String} (hlt : a < b) : a ≠ b := by
    rintro rfl
    exact String.lt_irrefl a hlt
  exact List.Pairwise.imp hne t.sorted

/-- Of entries with different keys each is found under its key. -/
theorem find?_entries {entries : List (String × α)} (hdistinct : (entries.map (·.1)).Nodup)
    {key : String} {value : α} :
    (entries.find? (·.1 = key)).map (·.2) = some value ↔ (key, value) ∈ entries := by
  constructor
  · intro h
    obtain ⟨⟨k, v⟩, hfound, rfl⟩ := Option.map_eq_some_iff.mp h
    obtain rfl : k = key := by simpa using List.find?_some hfound
    exact List.mem_of_find?_eq_some hfound
  · intro hmem
    have hsome : (entries.find? fun entry => decide (entry.1 = key)).isSome = true :=
      List.find?_isSome.mpr ⟨(key, value), hmem, by simp⟩
    obtain ⟨⟨k, v⟩, hentry⟩ := Option.isSome_iff_exists.mp hsome
    have hsame : (k, v) = (key, value) :=
      List.inj_on_of_nodup_map hdistinct (List.mem_of_find?_eq_some hentry) hmem
        (by simpa using List.find?_some hentry)
    rw [hentry, hsame]
    rfl

theorem find?_eq_some_iff {t : Table α} {key : String} {value : α} :
    t.find? key = some value ↔ (key, value) ∈ t.entries :=
  find?_entries (nodup_keys t)

/-- Tables that find the same values are equal. -/
theorem eq_of_find? {t u : Table α} (h : ∀ key, t.find? key = u.find? key) : t = u := by
  have hsorted (v : Table α) : v.entries.Pairwise (fun a b => a.1 < b.1) :=
    List.pairwise_map.mp v.sorted
  have hdistinct (v : Table α) : v.entries.Nodup := (nodup_keys v).of_map _
  have hperm : t.entries.Perm u.entries := by
    refine (List.perm_ext_iff_of_nodup (hdistinct t) (hdistinct u)).mpr fun entry => ?_
    rw [← find?_eq_some_iff, ← find?_eq_some_iff, h]
  refine ext (hperm.eq_of_pairwise (fun a b _ _ hab hba => ?_) (hsorted t) (hsorted u))
  exact absurd (String.lt_trans hab hba) (String.lt_irrefl _)

theorem find?_map (f : α → β) (t : Table α) (key : String) :
    (t.map f).find? key = (t.find? key).map f := by
  simp only [find?, map, List.find?_map, Option.map_map]
  rfl

theorem insert_map (f : α → β) (t : Table α) (key : String) (value : α) :
    (t.map f).insert key (f value) = (t.insert key value).map f := by
  refine eq_of_find? fun k => ?_
  rw [find?_insert, find?_map, find?_map, find?_insert]
  split <;> rfl

/-- The entries whose keys are not in a list. -/
def without (t : Table α) (names : List String) : Table α :=
  ⟨t.entries.filter (·.1 ∉ names), t.sorted.sublist (List.filter_sublist.map _)⟩

theorem find?_without (t : Table α) (names : List String) (key : String) :
    (t.without names).find? key = if key ∈ names then none else t.find? key := by
  simp only [find?, without, List.find?_filter]
  split
  · rename_i hmem
    rw [Option.map_eq_none_iff, List.find?_eq_none]
    rintro entry - hkey
    obtain ⟨hnew, rfl⟩ : entry.1 ∉ names ∧ entry.1 = key := by simpa using hkey
    exact hnew hmem
  · rename_i hnew
    congr 2
    funext entry
    by_cases hkey : entry.1 = key
    · simp [hkey, hnew]
    · simp [hkey]

theorem mem_keys_insert {t : Table α} {key k : String} {value : α} :
    k ∈ (t.insert key value).keys ↔ k = key ∨ k ∈ t.keys := by
  rw [mem_keys_iff, mem_keys_iff, find?_insert]
  split
  · rename_i heq
    simp [heq]
  · rename_i hne
    simp [hne]

theorem mem_keys_foldl_insert {ι : Type} (key : ι → String) (value : ι → α) {items : List ι}
    {t : Table α} {k : String} :
    k ∈ (items.foldl (fun t item => t.insert (key item) (value item)) t).keys ↔
      k ∈ items.map key ∨ k ∈ t.keys := by
  induction items generalizing t with
  | nil => simp
  | cons item items ih =>
    rw [List.foldl_cons, ih, mem_keys_insert, List.map_cons, List.mem_cons]
    tauto

/-- Entries put into a table one by one hide what it had under their keys. -/
theorem find?_foldl_insert (f : β → α) {entries : List (String × β)}
    (hdistinct : (entries.map (·.1)).Nodup) (t : Table α) (key : String) :
    (entries.foldl (fun t (name, value) => t.insert name (f value)) t).find? key =
      (((entries.find? (·.1 = key)).map (·.2)).map f).or (t.find? key) := by
  induction entries generalizing t with
  | nil => rfl
  | cons entry entries ih =>
    obtain ⟨name, value⟩ := entry
    rw [List.map_cons, List.nodup_cons] at hdistinct
    rw [List.foldl_cons, ih hdistinct.2, find?_insert]
    by_cases hkey : name = key
    · subst hkey
      have hlater : entries.find? (fun entry => decide (entry.1 = name)) = none := by
        rw [List.find?_eq_none]
        intro entry hentry
        have hmem : entry.1 ∈ entries.map (·.1) := List.mem_map_of_mem hentry
        have hne : entry.1 ≠ name := fun heq => hdistinct.1 (heq ▸ hmem)
        simpa using hne
      simp [hlater]
    · simp [hkey, Ne.symm hkey]

/-- Entries in ascending order build the table that has them. -/
theorem foldl_insert (before entries : List (String × α))
    (hbefore : (before.map (·.1)).Pairwise (· < ·))
    (hsorted : ((before ++ entries).map (·.1)).Pairwise (· < ·)) :
    (entries.foldl (fun t (key, value) => t.insert key value) ⟨before, hbefore⟩ : Table α) =
      ⟨before ++ entries, hsorted⟩ := by
  induction entries generalizing before with
  | nil => simp
  | cons entry entries ih =>
    obtain ⟨key, value⟩ := entry
    have hbelow : ∀ k ∈ before.map (·.1), k < key := by
      rw [List.map_append, List.pairwise_append] at hsorted
      exact fun k hk => hsorted.2.2 k hk key (by simp)
    have hinsert : (⟨before, hbefore⟩ : Table α).insert key value =
        ⟨before ++ [(key, value)], by
          rw [← insertEntry_eq_append hbelow]
          exact sorted_insertEntry key value hbefore⟩ := by
      ext1
      exact insertEntry_eq_append hbelow
    simp only [List.foldl_cons]
    rw [hinsert, ih _ _ (by simpa using hsorted)]
    simp

theorem ofList_entries (t : Table α) : ofList t.entries = t :=
  foldl_insert [] t.entries .nil t.sorted

theorem mem_foldl_insert {entries : List (String × α)} {t : Table α} {entry : String × α}
    (h : entry ∈ (entries.foldl (fun t entry => t.insert entry.1 entry.2) t).entries) :
    entry ∈ t.entries ∨ entry ∈ entries := by
  induction entries generalizing t with
  | nil => exact .inl h
  | cons first rest ih =>
    rcases ih h with hmem | hmem
    · rcases mem_insertEntry hmem with rfl | hmem
      · exact .inr (List.mem_cons_self ..)
      · exact .inl hmem
    · exact .inr (List.mem_cons_of_mem _ hmem)

/-- A table built from entries has no others. -/
theorem mem_ofList {entries : List (String × α)} {entry : String × α}
    (h : entry ∈ (ofList entries).entries) : entry ∈ entries :=
  (mem_foldl_insert h).resolve_left List.not_mem_nil

/-- A table that is filled entry by entry, each value computed as its turn comes: every value has
to be there, and the last one of a key counts. -/
theorem foldlM_insert_eq_ok_iff {ε ι : Type} {key : ι → String} {value : ι → Except ε α}
    {items : List ι} {t t' : Table α} :
    items.foldlM (fun (t : Table α) item => do return t.insert (key item) (← value item)) t =
        .ok t' ↔
      (∀ item ∈ items, ∃ a, value item = .ok a) ∧
        ∀ name, t'.find? name = (items.reverse.find? (key · = name)).elim (t.find? name)
          fun item => (value item).toOption := by
  induction items generalizing t with
  | nil =>
    constructor
    · intro h
      obtain rfl := Except.ok.inj h
      simp
    · rintro ⟨-, h⟩
      have heq : t' = t := eq_of_find? fun name => by simpa using h name
      rw [heq]
      rfl
  | cons item items ih =>
    rw [List.foldlM_cons, List.forall_mem_cons]
    obtain ⟨a, hvalue⟩ | ⟨e, hvalue⟩ : (∃ a, value item = .ok a) ∨ ∃ e, value item = .error e := by
      cases value item with
      | ok a => exact .inl ⟨a, rfl⟩
      | error e => exact .inr ⟨e, rfl⟩
    · have hfirst : (do return t.insert (key item) (← value item)) =
          (.ok (t.insert (key item) a) : Except ε (Table α)) := by
        rw [hvalue]
        rfl
      have hlast (name : String) : ((item :: items).reverse.find? (key · = name)).elim
            (t.find? name) (fun item => (value item).toOption) =
          (items.reverse.find? (key · = name)).elim ((t.insert (key item) a).find? name)
            fun item => (value item).toOption := by
        rw [List.reverse_cons, List.find?_append, find?_insert]
        cases hlater : items.reverse.find? (key · = name) with
        | some later => rfl
        | none =>
          by_cases hkey : key item = name
          · simp [hkey, hvalue, Except.toOption]
          · simp [hkey, Ne.symm hkey]
      rw [hfirst, ok_bind, ih]
      simp only [hlast, hvalue, Except.ok.injEq, exists_eq', true_and]
    · have hfirst : (do return t.insert (key item) (← value item)) =
          (.error e : Except ε (Table α)) := by
        rw [hvalue]
        rfl
      rw [hfirst, hvalue]
      simp

end Table

end TensorParity
