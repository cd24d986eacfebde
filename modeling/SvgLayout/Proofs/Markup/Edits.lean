import Mathlib.Data.List.Basic
import SvgLayout.Proofs.Markup.Attrs

/-!
# Attribute lists as ordered maps

However an attribute list is built, by setting keys and by merging lists that are built in the same
way, it stands for all the pairs that were written, one after the other: each key stands once, where
it was written first, with the value that was written last. An attribute list is determined by this,
so it does not matter in which groups the pairs were written.

## Main definitions

* `Attrs.Edits` — how an attribute list is built; `Attrs.Edits.result` is the list.
* `Attrs.Edits.writes` — every pair that was written.
* `Attrs.Records` — a list stands for pairs that were written.

## Main statements

* `Attrs.Records.set`, `Attrs.Records.merge` — setting a key and merging record what they write.
* `Attrs.Records.unique` — pairs are recorded by one list only.
* `Attrs.edits_refine_ordered_map` — lists, their order, and merging, whatever they are built from.
-/

namespace SvgLayout.Attrs

/-! ## First occurrences -/

/-- Keys may be dropped from a list before its repetitions are dropped or after that. -/
theorem eraseDups_filter (p : String → Bool) : ∀ keys : List String,
    (keys.filter p).eraseDups = keys.eraseDups.filter p
  | [] => rfl
  | key :: keys => by
    have rest := eraseDups_filter p (keys.filter fun k => !k == key)
    by_cases kept : p key
    · rw [List.filter_cons_of_pos kept, List.eraseDups_cons, List.eraseDups_cons,
        List.filter_cons_of_pos kept, ← rest, List.filter_comm]
    · have same_rest : (keys.filter fun k => !k == key).filter p = keys.filter p := by
        rw [List.filter_filter]
        apply List.filter_congr
        intro k _
        by_cases same : k = key <;> simp [same, kept]
      rw [List.filter_cons_of_neg kept, List.eraseDups_cons, List.filter_cons_of_neg kept, ← rest,
        same_rest]
termination_by keys => keys.length
decreasing_by exact Nat.lt_succ_of_le (List.length_filter_le _ _)

/-! ## Merging lists without repeated keys -/

section

variable {attrs other : Attrs} {key value : String}

/-- The value of an entry is the value of its key. -/
theorem get?_of_mem (nodup : attrs.keys.Nodup) (mem : (key, value) ∈ attrs.entries) :
    attrs.get? key = some value := by
  obtain ⟨before, after, split⟩ := List.append_of_mem mem
  rw [get?, List.lookup_eq_some_iff]
  refine ⟨before, after, split, fun entry earlier => ?_⟩
  rw [keys, split, List.map_append, List.nodup_append] at nodup
  have other := nodup.2.2 entry.1 (List.mem_map_of_mem earlier) key (by simp)
  simpa using other.symm

/-- The entries are the keys with their values. -/
theorem entries_eq_map_keys (nodup : attrs.keys.Nodup) :
    attrs.entries = attrs.keys.map fun key => (key, (attrs.get? key).getD "") := by
  rw [keys, List.map_map]
  refine (List.map_id _).symm.trans (List.map_congr_left fun entry mem => ?_)
  simp [get?_of_mem nodup mem]

/-- Pairs of distinct keys hold the same values from either end. -/
theorem lookup_reverse {pairs : List (String × String)} (nodup : (pairs.map Prod.fst).Nodup)
    (key : String) : pairs.reverse.lookup key = pairs.lookup key := by
  have made := get?_ofList pairs key
  rw [get?, entries_ofList nodup] at made
  exact made.symm

/-- Of two values the merged one wins. -/
theorem get?_merge (nodup : other.keys.Nodup) (key : String) :
    (attrs.merge other).get? key = (other.get? key).or (attrs.get? key) := by
  rw [merge, get?_setAll, lookup_reverse nodup]
  rfl

private theorem keys_setAll {pairs : List (String × String)} (nodup : (pairs.map Prod.fst).Nodup) :
    (attrs.setAll pairs).keys = attrs.keys ++ (pairs.map Prod.fst).filter (· ∉ attrs.keys) := by
  induction pairs generalizing attrs with
  | nil => simp
  | cons pair pairs ih =>
    rw [List.map_cons, List.nodup_cons] at nodup
    rw [setAll_cons, ih nodup.2, keys_set]
    by_cases old : pair.1 ∈ attrs.keys
    · simp [old]
    · have fresh : (pairs.map Prod.fst).filter (· ∉ attrs.keys ++ [pair.1]) =
          (pairs.map Prod.fst).filter (· ∉ attrs.keys) := by
        apply List.filter_congr
        intro key mem
        have other : key ≠ pair.1 := fun same => nodup.1 (same ▸ mem)
        simp [other]
      rw [if_neg old, fresh]
      simp [old]

/-- Merging keeps the keys that are there, and adds the new ones behind them in their order. -/
theorem keys_merge (nodup : other.keys.Nodup) :
    (attrs.merge other).keys = attrs.keys ++ other.keys.filter (· ∉ attrs.keys) :=
  keys_setAll nodup

end

/-! ## What a list stands for -/

/-- An attribute list stands for pairs that were written one after the other: its keys stand in the
order in which they were first written, with the values that were written last. -/
structure Records (attrs : Attrs) (writes : List (String × String)) : Prop where
  nodup : attrs.keys.Nodup
  order : attrs.keys = (writes.map Prod.fst).eraseDups
  value : ∀ key, attrs.get? key = writes.reverse.lookup key

namespace Records

variable {attrs other : Attrs} {writes more : List (String × String)}

theorem mem_keys (h : attrs.Records writes) {key : String} :
    key ∈ attrs.keys ↔ key ∈ writes.map Prod.fst := by
  rw [h.order, List.mem_eraseDups]

theorem empty : Attrs.empty.Records [] where
  nodup := List.nodup_nil
  order := rfl
  value _ := rfl

/-- Setting a key records one more pair. -/
theorem set (h : attrs.Records writes) (key value : String) :
    (attrs.set key value).Records (writes ++ [(key, value)]) where
  nodup := nodup_keys_set h.nodup key value
  order := by
    have written : key ∈ attrs.keys ↔ key ∈ writes.map Prod.fst := h.mem_keys
    rw [keys_set, List.map_append, List.eraseDups_append, ← h.order]
    by_cases old : key ∈ attrs.keys
    · simp [old, written.mp old, List.removeAll]
    · have new := mt written.mpr old
      simp [old, new, List.removeAll, List.eraseDups_cons]
  value k := by
    rw [get?_set, h.value, List.reverse_append, List.reverse_singleton, List.singleton_append,
      lookup_pair]

/-- Merging records all pairs of the other list. -/
theorem merge (h : attrs.Records writes) (h' : other.Records more) :
    (attrs.merge other).Records (writes ++ more) where
  nodup := nodup_keys_setAll h.nodup other.entries
  order := by
    have new : (more.map Prod.fst).filter (· ∉ attrs.keys) =
        (more.map Prod.fst).removeAll (writes.map Prod.fst) := by
      apply List.filter_congr
      intro key _
      simp [h.mem_keys]
    rw [keys_merge h'.nodup, List.map_append, List.eraseDups_append, ← h.order, h'.order,
      ← eraseDups_filter, new]
  value key := by
    rw [get?_merge h'.nodup, h.value, h'.value, List.reverse_append, List.lookup_append]

/-- Pairs are recorded by one list only. -/
theorem unique (h : attrs.Records writes) (h' : other.Records writes) : attrs = other := by
  have keys : attrs.keys = other.keys := h.order.trans h'.order.symm
  have values : attrs.get? = other.get? := by
    funext key
    exact (h.value key).trans (h'.value key).symm
  ext1
  rw [entries_eq_map_keys h.nodup, entries_eq_map_keys h'.nodup, keys, values]

end Records

/-! ## Edits -/

/-- How an attribute list is built: from nothing, by setting keys and by merging lists that are
built in the same way. -/
inductive Edits
  | start
  | set (edits : Edits) (key value : String)
  | extend (edits other : Edits)

namespace Edits

def result : Edits → Attrs
  | start => .empty
  | set edits key value => edits.result.set key value
  | extend edits other => edits.result.merge other.result

/-- Every pair that was written, those of a merged list when it is merged. -/
def writes : Edits → List (String × String)
  | start => []
  | set edits key value => edits.writes ++ [(key, value)]
  | extend edits other => edits.writes ++ other.writes

/-- Edits that go on with others. -/
def followedBy (edits : Edits) : Edits → Edits
  | start => edits
  | set later key value => set (edits.followedBy later) key value
  | extend later other => extend (edits.followedBy later) other

theorem writes_followedBy (edits later : Edits) :
    (edits.followedBy later).writes = edits.writes ++ later.writes := by
  induction later with
  | start => exact (List.append_nil _).symm
  | set later key value ih => rw [followedBy, writes, writes, ih, List.append_assoc]
  | extend later other ih => rw [followedBy, writes, writes, ih, List.append_assoc]

/-- What is built stands for what was written. -/
theorem records (edits : Edits) : edits.result.Records edits.writes := by
  induction edits with
  | start => exact Records.empty
  | set edits key value ih => exact ih.set key value
  | extend edits other ih ih' => exact ih.merge ih'

/-- The keys keep their order, whatever is written later. -/
theorem keys_followedBy (edits later : Edits) :
    edits.result.keys <+: (edits.followedBy later).result.keys := by
  rw [(edits.followedBy later).records.order, writes_followedBy, List.map_append,
    List.eraseDups_append, ← edits.records.order]
  exact List.prefix_append _ _

end Edits

/-- An attribute list stands for what was written, whatever it is built from. Its keys keep their
order when more is written, and setting a key again does not even add one. Merging sets the other
list's pairs one after the other: that list's values win, its new keys come last, and it does not
matter which of three lists are merged first. -/
theorem edits_refine_ordered_map (edits : Edits) :
    edits.result.Records edits.writes ∧
      (∀ later : Edits, edits.result.keys <+: (edits.followedBy later).result.keys) ∧
      (∀ key ∈ edits.result.keys, ∀ value,
        (edits.result.set key value).keys = edits.result.keys) ∧
      (∀ other : Edits,
        let merged := edits.result.merge other.result
        merged = other.result.entries.foldl (fun acc pair => acc.set pair.1 pair.2) edits.result ∧
          (∀ key, merged.get? key = (other.result.get? key).or (edits.result.get? key)) ∧
          merged.keys = edits.result.keys ++ other.result.keys.filter (· ∉ edits.result.keys)) ∧
      ∀ second third : Edits,
        (edits.result.merge second.result).merge third.result =
          edits.result.merge (second.result.merge third.result) := by
  refine ⟨edits.records, edits.keys_followedBy, ?_, ?_, ?_⟩
  · intro key old value
    rw [keys_set, if_pos old]
  · intro other merged
    have nodup := other.records.nodup
    exact ⟨rfl, get?_merge nodup, keys_merge nodup⟩
  · intro second third
    have left := (edits.records.merge second.records).merge third.records
    have right := edits.records.merge (second.records.merge third.records)
    rw [List.append_assoc] at left
    exact left.unique right

/-! ## A repainted shape -/

/-- A fill and a stroke, and then another fill. -/
def Edits.repainted : Edits :=
  ((start.set "fill" "red").set "stroke" "black").set "fill" "none"

/-- Another stroke, and an opacity. -/
def Edits.overlaid : Edits :=
  (start.set "stroke" "blue").set "opacity" "0.5"

/-- The second fill stands where the first one stood, and so would a third one. The other stroke
replaces the first one in its place, and the opacity comes last. -/
theorem edits_refine_ordered_map_repainted :
    Edits.repainted.result.entries = [("fill", "none"), ("stroke", "black")] ∧
      Edits.repainted.result.Records [("fill", "red"), ("stroke", "black"), ("fill", "none")] ∧
      "fill" ∈ Edits.repainted.result.keys ∧
      (Edits.repainted.result.set "fill" "white").keys = ["fill", "stroke"] ∧
      (Edits.repainted.result.merge Edits.overlaid.result).get? "stroke" = some "blue" ∧
      (Edits.repainted.result.merge Edits.overlaid.result).keys =
        ["fill", "stroke", "opacity"] := by
  obtain ⟨records, -, again, merged, -⟩ := edits_refine_ordered_map Edits.repainted
  obtain ⟨-, values, keys⟩ := merged Edits.overlaid
  have old : "fill" ∈ Edits.repainted.result.keys := by decide
  refine ⟨by decide, records, old, (again "fill" old "white").trans (by decide),
    (values "stroke").trans (by decide), keys.trans (by decide)⟩

end SvgLayout.Attrs
