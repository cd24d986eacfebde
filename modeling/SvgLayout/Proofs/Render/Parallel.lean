import SvgLayout.Proofs.Markup.References
import SvgLayout.Proofs.Render.Issue
import SvgLayout.Proofs.Render.Outcome

/-!
# Drawing from two registries

A drawing computation learns from its registry nothing but numbers for identifiers. So it does the
same from two registries, whatever they hold: it gives the same answer, up to the numbers in the
identifiers that it was issued, and it makes the same definitions, up to these numbers. In both runs
they are counted from the number that the registry starts with.

The numbers `n` and `n'` are those of the two registries at the start of the whole drawing. In the
middle of it both registries have moved on by the same count.

## Main definitions

* `Entry.Relocated`, `Attrs.Relocated`, `Markup.Relocated` — the same markup with identifiers that
  are counted from another number.
* `Registry.MovesAlong` — two registries that are extended in the same way.
* `Render.Parallel` — two computations that do the same from two registries.

## Main statements

* `Attrs.Relocated.setAll` — setting attributes keeps them relocated.
* `Markup.Relocated.eq` — markup is only relocated to itself if the numbers are the same.
* `Render.Parallel.bind`, `Render.Parallel.mapM` — composed computations.
* `drawTag_parallel`, `drawChildren_parallel` — nodes and children.
-/

namespace SvgLayout

/-! ## Relocated markup -/

/-- The same attribute, except that the number of an identifier, in the attribute that defines it or
in one that refers to it, is as far from `n'` as it was from `n`. -/
inductive Entry.Relocated (n n' : Nat) : String × String → String × String → Prop
  | same (entry : String × String) : Relocated n n' entry entry
  | id (stem : String) (k : Nat) :
    Relocated n n' ("id", identifier stem (n + k)) ("id", identifier stem (n' + k))
  | link {key : String} (isLink : isLinkKey key = true) (stem : String) (k : Nat) :
    Relocated n n' (key, reference (identifier stem (n + k)))
      (key, reference (identifier stem (n' + k)))

/-- Attributes that are relocated one by one. -/
def Attrs.Relocated (n n' : Nat) (attrs attrs' : Attrs) : Prop :=
  List.Forall₂ (Entry.Relocated n n') attrs.entries attrs'.entries

/-- The same markup, except for the numbers of identifiers. -/
inductive Markup.Relocated (n n' : Nat) : Markup → Markup → Prop
  | text (content : String) : Relocated n n' (.text content) (.text content)
  | verbatim (written : String) : Relocated n n' (.verbatim written) (.verbatim written)
  | empty (name : String) {attrs attrs' : Attrs} (h : attrs.Relocated n n' attrs') :
    Relocated n n' (.empty name attrs) (.empty name attrs')
  | tag (name : String) {attrs attrs' : Attrs} {content content' : List Markup}
    (h : attrs.Relocated n n' attrs') (inside : List.Forall₂ (Relocated n n') content content') :
    Relocated n n' (.tag name attrs content) (.tag name attrs' content')

namespace Attrs.Relocated

variable {n n' : Nat} {attrs attrs' : Attrs} {pairs pairs' : List (String × String)}

theorem same (n n' : Nat) (attrs : Attrs) : attrs.Relocated n n' attrs :=
  List.forall₂_same.mpr fun entry _ => .same entry

theorem key_eq {entry entry' : String × String} (h : Entry.Relocated n n' entry entry') :
    entry.1 = entry'.1 := by
  cases h <;> rfl

/-- Keys stay where they are, so a key that is set again is set at the same place. -/
theorem setEntry {entries entries' : List (String × String)} {key value value' : String}
    (h : List.Forall₂ (Entry.Relocated n n') entries entries')
    (hp : Entry.Relocated n n' (key, value) (key, value')) :
    List.Forall₂ (Entry.Relocated n n') (Attrs.setEntry key value entries)
      (Attrs.setEntry key value' entries') := by
  induction h with
  | nil => exact .cons hp .nil
  | @cons entry entry' entries entries' first rest ih =>
    obtain ⟨k, v⟩ := entry
    obtain ⟨k', v'⟩ := entry'
    obtain rfl : k = k' := key_eq first
    by_cases again : k = key
    · rw [Attrs.setEntry, Attrs.setEntry, if_pos again, if_pos again, again]
      exact .cons hp rest
    · rw [Attrs.setEntry, Attrs.setEntry, if_neg again, if_neg again]
      exact .cons first ih

theorem set (h : attrs.Relocated n n' attrs') {pair pair' : String × String}
    (hp : Entry.Relocated n n' pair pair') :
    (attrs.set pair.1 pair.2).Relocated n n' (attrs'.set pair'.1 pair'.2) := by
  obtain ⟨key, value⟩ := pair
  obtain ⟨key', value'⟩ := pair'
  obtain rfl : key = key' := key_eq hp
  exact setEntry h hp

/-- Relocated pairs that are set one after another. -/
theorem setAll (h : attrs.Relocated n n' attrs')
    (hp : List.Forall₂ (Entry.Relocated n n') pairs pairs') :
    (attrs.setAll pairs).Relocated n n' (attrs'.setAll pairs') := by
  induction hp generalizing attrs attrs' with
  | nil => exact h
  | cons first _ ih => exact ih (h.set first)

theorem ofList (hp : List.Forall₂ (Entry.Relocated n n') pairs pairs') :
    (Attrs.ofList pairs).Relocated n n' (.ofList pairs') :=
  setAll (same n n' .empty) hp

theorem setAll_same (h : attrs.Relocated n n' attrs') (pairs : List (String × String)) :
    (attrs.setAll pairs).Relocated n n' (attrs'.setAll pairs) :=
  h.setAll (List.forall₂_same.mpr fun entry _ => .same entry)

end Attrs.Relocated

/-- The line ends between relocated pieces are the same. -/
theorem Markup.forall₂_lines {n n' : Nat} {pieces pieces' : List Markup}
    (h : List.Forall₂ (Markup.Relocated n n') pieces pieces') :
    List.Forall₂ (Markup.Relocated n n') (lines pieces) (lines pieces') := by
  have ends : Markup.Relocated n n' newline newline := .text _
  rw [lines, lines]
  induction h with
  | nil => exact .nil
  | cons first rest ih =>
    cases rest with
    | nil => exact .cons first .nil
    | cons second rest => exact .cons first (.cons ends ih)

/-- A tag with relocated attributes and relocated content, if it has any. -/
theorem Markup.relocated_element {n n' : Nat} (name : String) {attrs attrs' : Attrs}
    {content content' : Option (List Markup)} (h : attrs.Relocated n n' attrs')
    (inside : Option.Rel (List.Forall₂ (Markup.Relocated n n')) content content') :
    (Markup.element name attrs content).Relocated n n' (.element name attrs' content') := by
  cases inside with
  | none => exact .empty name h
  | some inside => exact .tag name h inside

/-! ### Relocated by nothing -/

theorem Entry.Relocated.eq {n : Nat} {entry entry' : String × String}
    (h : Entry.Relocated n n entry entry') : entry = entry' := by
  cases h <;> rfl

theorem Attrs.Relocated.eq {n : Nat} {attrs attrs' : Attrs} (h : attrs.Relocated n n attrs') :
    attrs = attrs' := by
  apply Attrs.ext
  exact List.forall₂_eq_eq_eq ▸ h.imp fun _ _ => Entry.Relocated.eq

mutual

/-- Identifiers that are counted from the same number are the same. -/
theorem Markup.Relocated.eq {n : Nat} : ∀ {m m' : Markup}, Markup.Relocated n n m m' → m = m'
  | _, _, .text _ => rfl
  | _, _, .verbatim _ => rfl
  | _, _, .empty _ h => by rw [h.eq]
  | _, _, .tag _ h inside => by rw [h.eq, Markup.Relocated.list_eq inside]

theorem Markup.Relocated.list_eq {n : Nat} :
    ∀ {ms ms' : List Markup}, List.Forall₂ (Markup.Relocated n n) ms ms' → ms = ms'
  | _, _, .nil => rfl
  | _, _, .cons h rest => by rw [h.eq, Markup.Relocated.list_eq rest]

end

/-! ## Two registries -/

namespace Registry

/-- Between `r` and `s`, and between `r'` and `s'`, as many identifiers were issued, and definitions
were made that are relocated one by one. Nothing else changed. -/
def MovesAlong (n n' : Nat) (r s r' s' : Registry) : Prop :=
  ∃ count defs defs', s = ⟨r.nextId + count, r.defs ++ defs⟩ ∧
    s' = ⟨r'.nextId + count, r'.defs ++ defs'⟩ ∧
    List.Forall₂ (Markup.Relocated n n') defs defs'

variable {n n' : Nat} {r s t r' s' t' : Registry}

theorem MovesAlong.refl (n n' : Nat) (r r' : Registry) : MovesAlong n n' r r r' r' :=
  ⟨0, [], [], by simp, by simp, .nil⟩

theorem MovesAlong.trans (h : MovesAlong n n' r s r' s') (k : MovesAlong n n' s t s' t') :
    MovesAlong n n' r t r' t' := by
  obtain ⟨count, defs, defs', rfl, rfl, made⟩ := h
  obtain ⟨more, others, others', rfl, rfl, also⟩ := k
  exact ⟨count + more, defs ++ others, defs' ++ others', by simp [Nat.add_assoc],
    by simp [Nat.add_assoc], List.rel_append made also⟩

theorem MovesAlong.nextId_eq (h : MovesAlong n n' r s r' s') :
    ∃ count, s.nextId = r.nextId + count ∧ s'.nextId = r'.nextId + count := by
  obtain ⟨count, _, _, rfl, rfl, -⟩ := h
  exact ⟨count, rfl, rfl⟩

end Registry

/-! ## Two runs -/

/-- Both are values, which are related, or both are the same error. -/
inductive Except.Rel {ε β β' : Type} (R : β → β' → Prop) : Except ε β → Except ε β' → Prop
  | ok {b : β} {b' : β'} (h : R b b') : Rel R (.ok b) (.ok b')
  | error (e : ε) : Rel R (.error e) (.error e)

variable {α β β' γ γ' δ : Type}

/-- From registries that are equally far from `n` and `n'`, both computations end with related
values or with the same error, and they extend the registries in the same way. -/
def Render.Parallel (n n' : Nat) (R : β → β' → Prop) (m : Render α β) (m' : Render α β') : Prop :=
  ∀ ⦃k r r'⦄, r.nextId = n + k → r'.nextId = n' + k →
    Except.Rel R (m.outcome r).1 (m'.outcome r').1 ∧
      Registry.MovesAlong n n' r (m.outcome r).2 r' (m'.outcome r').2

namespace Render.Parallel

variable {n n' : Nat} {R : β → β' → Prop} {S : γ → γ' → Prop}

theorem pure {b : β} {b' : β'} (h : R b b') :
    Parallel n n' R (Pure.pure b : Render α β) (Pure.pure b') :=
  fun _ r r' _ _ => ⟨.ok h, .refl n n' r r'⟩

theorem throw (e : LayoutError α) :
    Parallel n n' R (MonadExcept.throw e : Render α β) (MonadExcept.throw e) :=
  fun _ r r' _ _ => ⟨.error e, .refl n n' r r'⟩

theorem bind {m : Render α β} {m' : Render α β'} {f : β → Render α γ} {f' : β' → Render α γ'}
    (hm : Parallel n n' R m m') (hf : ∀ b b', R b b' → Parallel n n' S (f b) (f' b')) :
    Parallel n n' S (m >>= f) (m' >>= f') := by
  intro k r r' next next'
  obtain ⟨answers, moved⟩ := hm next next'
  rw [outcome_bind, outcome_bind]
  rcases first : m.outcome r with ⟨answer, s⟩
  rcases second : m'.outcome r' with ⟨answer', s'⟩
  rw [first, second] at answers moved
  cases answers with
  | error e => exact ⟨.error e, moved⟩
  | @ok b b' h =>
    obtain ⟨count, nextId, nextId'⟩ := moved.nextId_eq
    rw [next, Nat.add_assoc] at nextId
    rw [next', Nat.add_assoc] at nextId'
    obtain ⟨result, rest⟩ := hf b b' h nextId nextId'
    exact ⟨result, moved.trans rest⟩

theorem map {m : Render α β} {m' : Render α β'} {f : β → γ} {f' : β' → γ'}
    (hm : Parallel n n' R m m') (hf : ∀ b b', R b b' → S (f b) (f' b')) :
    Parallel n n' S (f <$> m) (f' <$> m') := by
  rw [map_eq_pure_bind, map_eq_pure_bind]
  exact hm.bind fun b b' h => .pure (hf b b' h)

/-- What is measured does not depend on the registry. -/
theorem lift_bind {x : Except (LayoutError α) δ} {f : δ → Render α β} {f' : δ → Render α β'}
    (hf : ∀ a, x = .ok a → Parallel n n' R (f a) (f' a)) :
    Parallel n n' R ((liftM x : Render α δ) >>= f) ((liftM x : Render α δ) >>= f') := by
  cases x with
  | error e => exact throw e
  | ok a => exact hf a rfl

theorem mapM {f : δ → Render α β} {f' : δ → Render α β'} {xs : List δ}
    (h : ∀ x ∈ xs, Parallel n n' R (f x) (f' x)) :
    Parallel n n' (List.Forall₂ R) (xs.mapM f) (xs.mapM f') := by
  induction xs with
  | nil => exact .pure .nil
  | cons x xs ih =>
    rw [List.forall_mem_cons] at h
    rw [List.mapM_cons, List.mapM_cons]
    exact h.1.bind fun y y' hy => (ih h.2).bind fun ys ys' hys => .pure (.cons hy hys)

/-- The numbers that are issued are equally far from `n` and `n'`. -/
theorem newId (stem : String) :
    Parallel n n' (fun id id' => ∃ k, id = identifier stem (n + k) ∧ id' = identifier stem (n' + k))
      (newId stem : Render α String) (newId stem) := by
  intro k r r' next next'
  rw [outcome_newId, outcome_newId, Registry.fst_allocate, Registry.fst_allocate, next, next']
  exact ⟨.ok ⟨k, rfl, rfl⟩, 1, [], [], by simp [Registry.allocate], by simp [Registry.allocate],
    .nil⟩

theorem addDefinition {definition definition' : Markup}
    (h : definition.Relocated n n' definition') :
    Parallel n n' (fun _ _ => True) (addDefinition definition : Render α Unit)
      (addDefinition definition') := by
  intro k r r' _ _
  exact ⟨.ok trivial, 0, [definition], [definition'], rfl, rfl, .cons h .nil⟩

end Render.Parallel

variable [Scalar α] [NumberText α] {n n' : Nat}

open Render

/-- A node is drawn in parallel if its geometry and its content are. -/
theorem drawTag_parallel {kind tag : String} {style : Style α} {ctx : Context α}
    {geometry : Render α Attrs} {content : Render α (Option (List Markup))}
    (hg : Parallel n n' (Attrs.Relocated n n') geometry geometry)
    (hc : Parallel n n' (Option.Rel (List.Forall₂ (Markup.Relocated n n'))) content content) :
    Parallel n n' (Markup.Relocated n n') (drawTag kind tag style ctx geometry content)
      (drawTag kind tag style ctx geometry content) := by
  have attrs : Parallel n n' (Attrs.Relocated n n') (nodeAttrs kind style ctx geometry)
      (nodeAttrs kind style ctx geometry) := by
    rw [nodeAttrs]
    split
    next => exact .bind (.throw (R := fun _ _ => False) _) fun _ _ h => h.elim
    next =>
      refine hg.bind fun attrs attrs' h => ?_
      have styled := h.setAll_same (style.attrs ctx.precision).entries
      cases ctx.transform? with
      | none => exact .pure styled
      | some t => exact .pure (styled.set (.same ("transform", t)))
  exact attrs.bind fun _ _ h => hc.bind fun _ _ inside =>
    .pure (Markup.relocated_element tag h inside)

/-- The outline of a child is the same in both runs. -/
theorem debugBox_relocated (ctx : Context α) : (debugBox ctx).Relocated n n' (debugBox ctx) :=
  .empty "rect" (.same n n' _)

/-- Children are drawn in parallel if each of them is. -/
theorem drawChildren_parallel {debug : Bool} {ctx : Context α} {children : List (Drawable α)}
    (h : ∀ child ∈ children, ∀ ctx,
      Parallel n n' (Markup.Relocated n n') (child.draw ctx) (child.draw ctx)) :
    Parallel n n' (List.Forall₂ (Markup.Relocated n n')) (drawChildren debug ctx children)
      (drawChildren debug ctx children) := by
  refine .bind (.mapM (R := List.Forall₂ (Markup.Relocated n n')) fun child hchild => ?_)
    fun drawn drawn' all => .pure (Markup.forall₂_lines (List.rel_flatten all))
  refine .lift_bind fun childCtx _ => (h child hchild childCtx).bind fun m m' hm => .pure ?_
  cases debug with
  | true => exact .cons hm (.cons (debugBox_relocated childCtx) .nil)
  | false => exact .cons hm .nil

end SvgLayout
