import SvgLayout.Markup.Attrs

/-!
# Setting attributes

What setting keys does to the list of keys, to the values of keys, and to the part of an attribute
list whose keys satisfy a condition. Keys that do not satisfy it never matter to that part.

## Main definitions

* `Attrs.keys` — the keys in order.
* `Attrs.restrict` — the attributes whose keys satisfy a condition.

## Main statements

* `Attrs.nodup_keys_setAll` — no key stands twice after setting pairs one after another.
* `Attrs.entries_set`, `Attrs.entries_setAll` — setting new keys appends them.
* `Attrs.get?_setAll` — the value of a key is the last one that was set.
* `Attrs.restrict_setAll`, `Attrs.restrict_merge` — restricting commutes with setting.
-/

namespace SvgLayout.Attrs

/-! ## Keys -/

def keys (attrs : Attrs) : List String :=
  attrs.entries.map Prod.fst

@[simp] theorem keys_empty : empty.keys = [] := rfl

private theorem map_fst_setEntry (key value : String) (entries : List (String × String)) :
    (setEntry key value entries).map Prod.fst =
      if key ∈ entries.map Prod.fst then entries.map Prod.fst
      else entries.map Prod.fst ++ [key] := by
  induction entries with
  | nil => simp [setEntry]
  | cons entry entries ih =>
    obtain ⟨k, v⟩ := entry
    by_cases h : k = key
    · simp [setEntry, h]
    · have h' : key ≠ k := fun eq => h eq.symm
      by_cases hk : key ∈ entries.map Prod.fst
      · simp [setEntry, h, h', ih, hk]
      · simp [setEntry, h, h', ih, hk]

/-- Setting a key adds it at the end, unless it is there already. -/
theorem keys_set (attrs : Attrs) (key value : String) :
    (attrs.set key value).keys =
      if key ∈ attrs.keys then attrs.keys else attrs.keys ++ [key] :=
  map_fst_setEntry key value attrs.entries

theorem mem_keys_set {attrs : Attrs} {key value k : String} :
    k ∈ (attrs.set key value).keys ↔ k ∈ attrs.keys ∨ k = key := by
  rw [keys_set]
  by_cases h : key ∈ attrs.keys
  · rw [if_pos h]
    constructor
    · exact Or.inl
    · rintro (hk | rfl)
      · exact hk
      · exact h
  · simp [h]

theorem mem_keys_setAll {attrs : Attrs} {pairs : List (String × String)} {k : String} :
    k ∈ (attrs.setAll pairs).keys ↔ k ∈ attrs.keys ∨ k ∈ pairs.map Prod.fst := by
  induction pairs generalizing attrs with
  | nil => simp
  | cons pair pairs ih => rw [setAll_cons, ih, mem_keys_set, List.map_cons, List.mem_cons, or_assoc]

theorem mem_keys_ofList {pairs : List (String × String)} {k : String} :
    k ∈ (ofList pairs).keys ↔ k ∈ pairs.map Prod.fst := by
  rw [ofList, mem_keys_setAll]
  simp

/-- Setting a key keeps all keys distinct. -/
theorem nodup_keys_set {attrs : Attrs} (h : attrs.keys.Nodup) (key value : String) :
    (attrs.set key value).keys.Nodup := by
  rw [keys_set]
  by_cases hk : key ∈ attrs.keys
  · rw [if_pos hk]
    exact h
  · have fresh : ∀ k ∈ attrs.keys, k ≠ key := fun k mem eq => hk (eq ▸ mem)
    rw [if_neg hk, List.nodup_append]
    exact ⟨h, by simp, by simpa using fresh⟩

/-- Setting pairs one after another keeps all keys distinct. -/
theorem nodup_keys_setAll {attrs : Attrs} (h : attrs.keys.Nodup) (pairs : List (String × String)) :
    (attrs.setAll pairs).keys.Nodup := by
  induction pairs generalizing attrs with
  | nil => exact h
  | cons pair pairs ih =>
    rw [setAll_cons]
    exact ih (nodup_keys_set h pair.1 pair.2)

/-- No key stands twice in attributes made from pairs. -/
theorem nodup_keys_ofList (pairs : List (String × String)) : (ofList pairs).keys.Nodup :=
  nodup_keys_setAll (by simp) pairs

/-! ## Setting new keys -/

private theorem setEntry_of_notMem {key : String} {entries : List (String × String)}
    (h : key ∉ entries.map Prod.fst) (value : String) :
    setEntry key value entries = entries ++ [(key, value)] := by
  induction entries with
  | nil => rfl
  | cons entry entries ih =>
    obtain ⟨k, v⟩ := entry
    rw [List.map_cons, List.mem_cons, not_or] at h
    have hk : k ≠ key := Ne.symm h.1
    rw [setEntry, if_neg hk, ih h.2, List.cons_append]

/-- A key that is not set yet is appended. -/
theorem entries_set {attrs : Attrs} {key : String} (new : key ∉ attrs.keys) (value : String) :
    (attrs.set key value).entries = attrs.entries ++ [(key, value)] :=
  setEntry_of_notMem new value

/-- Pairs of distinct keys that are not set yet are appended. -/
theorem entries_setAll {attrs : Attrs} {pairs : List (String × String)}
    (h : (attrs.keys ++ pairs.map Prod.fst).Nodup) :
    (attrs.setAll pairs).entries = attrs.entries ++ pairs := by
  induction pairs generalizing attrs with
  | nil => simp
  | cons pair pairs ih =>
    have new : pair.1 ∉ attrs.keys := by
      intro hk
      have disjoint := (List.nodup_append.mp h).2.2
      exact disjoint _ hk _ (by simp) rfl
    have set_eq : (attrs.set pair.1 pair.2).entries = attrs.entries ++ [pair] :=
      entries_set new pair.2
    have keys_eq : (attrs.set pair.1 pair.2).keys = attrs.keys ++ [pair.1] := by
      rw [keys_set, if_neg new]
    rw [setAll_cons, ih, set_eq, List.append_assoc, List.singleton_append]
    rw [keys_eq, List.append_assoc]
    exact h

/-- Attributes made from pairs of distinct keys are these pairs. -/
theorem entries_ofList {pairs : List (String × String)} (h : (pairs.map Prod.fst).Nodup) :
    (ofList pairs).entries = pairs := by
  rw [ofList, entries_setAll] <;> simp [h]

/-! ## Values -/

/-- The value of a key in pairs whose first one may have it. -/
theorem lookup_pair (pair : String × String) (pairs : List (String × String)) (k : String) :
    (pair :: pairs).lookup k = if k = pair.1 then some pair.2 else pairs.lookup k := by
  rw [List.lookup_cons]
  by_cases h : k = pair.1
  · simp [h]
  · have differ : (k == pair.1) = false := by simpa using h
    simp [h, differ]

private theorem lookup_setEntry (key value k : String) (entries : List (String × String)) :
    (setEntry key value entries).lookup k = if k = key then some value else entries.lookup k := by
  induction entries with
  | nil => exact lookup_pair (key, value) [] k
  | cons entry entries ih =>
    by_cases replaced : entry.1 = key
    · rw [setEntry, if_pos replaced, lookup_pair, lookup_pair]
      by_cases h : k = key <;> simp [replaced, h]
    · rw [setEntry, if_neg replaced, lookup_pair, lookup_pair, ih]
      by_cases h : k = entry.1
      · simp only [h, if_true, if_neg replaced]
      · simp only [if_neg h]

/-- Setting a key changes its value and no other one. -/
theorem get?_set (attrs : Attrs) (key value k : String) :
    (attrs.set key value).get? k = if k = key then some value else attrs.get? k :=
  lookup_setEntry key value k attrs.entries

/-- The value of a key is the last one that was set. -/
theorem get?_setAll (attrs : Attrs) (pairs : List (String × String)) (k : String) :
    (attrs.setAll pairs).get? k = (pairs.reverse.lookup k).or (attrs.get? k) := by
  induction pairs generalizing attrs with
  | nil => rfl
  | cons pair pairs ih =>
    rw [setAll_cons, ih, get?_set, List.reverse_cons, List.lookup_append, Option.or_assoc,
      lookup_pair]
    by_cases h : k = pair.1 <;> simp [h]

theorem get?_ofList (pairs : List (String × String)) (k : String) :
    (ofList pairs).get? k = pairs.reverse.lookup k := by
  rw [ofList, get?_setAll, get?_empty, Option.or_none]

/-! ## Restricting -/

/-- The attributes whose keys satisfy a condition. -/
def restrict (p : String → Bool) (attrs : Attrs) : Attrs :=
  ⟨attrs.entries.filter fun entry => p entry.1⟩

variable (p : String → Bool)

private theorem filter_setEntry (key value : String) (entries : List (String × String)) :
    (setEntry key value entries).filter (fun entry => p entry.1) =
      if p key then setEntry key value (entries.filter fun entry => p entry.1)
      else entries.filter fun entry => p entry.1 := by
  induction entries with
  | nil => by_cases hp : p key <;> simp [setEntry, hp]
  | cons entry entries ih =>
    obtain ⟨k, v⟩ := entry
    by_cases h : k = key
    · subst h
      by_cases hp : p k <;> simp [setEntry, hp]
    · by_cases hk : p k
      · by_cases hp : p key <;> simp [setEntry, h, hk, hp, ih]
      · simp [setEntry, h, hk, ih]

/-- Setting a key matters to a part only if the part has the key. -/
theorem restrict_set (attrs : Attrs) (key value : String) :
    (attrs.set key value).restrict p =
      if p key then (attrs.restrict p).set key value else attrs.restrict p := by
  have h := filter_setEntry p key value attrs.entries
  by_cases hp : p key
  · simpa [set, restrict, hp] using h
  · simpa [set, restrict, hp] using h

/-- Of pairs that are set only those matter to a part whose keys it has. -/
theorem restrict_setAll (attrs : Attrs) (pairs : List (String × String)) :
    (attrs.setAll pairs).restrict p =
      (attrs.restrict p).setAll (pairs.filter fun pair => p pair.1) := by
  induction pairs generalizing attrs with
  | nil => rfl
  | cons pair pairs ih =>
    rw [setAll_cons, ih, restrict_set]
    by_cases hp : p pair.1 <;> simp [hp]

theorem restrict_ofList (pairs : List (String × String)) :
    (ofList pairs).restrict p = ofList (pairs.filter fun pair => p pair.1) :=
  restrict_setAll p empty pairs

/-- The part of merged attributes is the merged parts. -/
theorem restrict_merge (attrs other : Attrs) :
    (attrs.merge other).restrict p = (attrs.restrict p).merge (other.restrict p) :=
  restrict_setAll p attrs other.entries

end SvgLayout.Attrs
