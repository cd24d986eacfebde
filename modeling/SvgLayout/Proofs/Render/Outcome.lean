import SvgLayout.Element.Render

/-!
# Outcomes of drawing computations

A drawing computation answers from a registry with a value or an error, and leaves a registry in
both cases. `outcome` says what it answers and leaves, `Returns` that it answers a value, and
`Fails` that it answers an error. All of them are read off a computation one operation at a time.

## Main definitions

* `Render.outcome` — the answer and the registry that is left.
* `Render.Returns`, `Render.Fails` — the computation succeeds, or fails.
* `Render.Ensures` — what holds of every value, while the registry keeps an invariant.

## Main statements

* `Render.outcome_bind`, `Render.returns_bind`, `Render.fails_bind` — one computation after another.
* `Render.returns_drawTag`, `Render.fails_drawTag` — when a node is drawn, and as what.
* `Render.Ensures.bind`, `Render.Ensures.mapM` — guarantees of composed computations.
-/

namespace SvgLayout.Render

variable {α β γ : Type}

/-! ## Outcomes -/

/-- What a computation answers from a registry, and the registry it leaves. -/
def outcome (m : Render α β) (r : Registry) : Except (LayoutError α) β × Registry :=
  (m.run.run r).run

@[simp] theorem outcome_pure (b : β) (r : Registry) :
    (pure b : Render α β).outcome r = (.ok b, r) := rfl

@[simp] theorem outcome_throw (e : LayoutError α) (r : Registry) :
    (throw e : Render α β).outcome r = (.error e, r) := rfl

@[simp] theorem outcome_lift (x : Except (LayoutError α) β) (r : Registry) :
    (liftM x : Render α β).outcome r = (x, r) := rfl

@[simp] theorem outcome_newId (stem : String) (r : Registry) :
    (newId stem : Render α String).outcome r = (.ok (r.allocate stem).1, (r.allocate stem).2) :=
  rfl

@[simp] theorem outcome_addDefinition (definition : Markup) (r : Registry) :
    (addDefinition definition : Render α Unit).outcome r = (.ok (), r.define definition) := rfl

/-- One computation after another; a failure of the first is that of both. -/
theorem outcome_bind (m : Render α β) (f : β → Render α γ) (r : Registry) :
    (m >>= f).outcome r =
      match m.outcome r with
      | (.ok b, r') => (f b).outcome r'
      | (.error e, r') => (.error e, r') := by
  have h : (m >>= f).outcome r = ((ExceptT.bindCont f (m.outcome r).1).run (m.outcome r).2).run :=
    rfl
  rw [h]
  rcases m.outcome r with ⟨e | b, r'⟩ <;> rfl

/-! ## Success -/

/-- From registry `r` the computation succeeds with `b` and leaves `r'`. -/
def Returns (m : Render α β) (r : Registry) (b : β) (r' : Registry) : Prop :=
  m.outcome r = (.ok b, r')

variable {r r' : Registry}

@[simp] theorem returns_pure {b c : β} :
    (pure b : Render α β).Returns r c r' ↔ c = b ∧ r' = r := by
  simp [Returns, eq_comm]

@[simp] theorem returns_throw {e : LayoutError α} {c : β} :
    ¬(throw e : Render α β).Returns r c r' := by
  simp [Returns]

@[simp] theorem returns_lift {x : Except (LayoutError α) β} {c : β} :
    (liftM x : Render α β).Returns r c r' ↔ x = .ok c ∧ r' = r := by
  simp [Returns, eq_comm]

@[simp] theorem returns_newId {stem id : String} :
    (newId stem : Render α String).Returns r id r' ↔
      id = (r.allocate stem).1 ∧ r' = (r.allocate stem).2 := by
  simp [Returns, eq_comm]

@[simp] theorem returns_addDefinition {definition : Markup} {u : Unit} :
    (addDefinition definition : Render α Unit).Returns r u r' ↔ r' = r.define definition := by
  simp [Returns, eq_comm]

/-- One computation after another succeeds if both do. -/
@[simp] theorem returns_bind {m : Render α β} {f : β → Render α γ} {c : γ} :
    (m >>= f).Returns r c r' ↔ ∃ b s, m.Returns r b s ∧ (f b).Returns s c r' := by
  rw [Returns, outcome_bind]
  rcases h : m.outcome r with ⟨e | b, s⟩
  · simp [Returns, h]
  · constructor
    · intro hc
      exact ⟨b, s, h, hc⟩
    · rintro ⟨b', s', hb, hc⟩
      rw [Returns, h] at hb
      cases hb
      exact hc

@[simp] theorem returns_map {f : β → γ} {m : Render α β} {c : γ} :
    (f <$> m).Returns r c r' ↔ ∃ b, m.Returns r b r' ∧ c = f b := by
  rw [map_eq_pure_bind, returns_bind]
  simp

/-! ## Failure -/

/-- From registry `r` the computation fails with `err` and leaves `r'`. -/
def Fails (m : Render α β) (r : Registry) (err : LayoutError α) (r' : Registry) : Prop :=
  m.outcome r = (.error err, r')

variable {err : LayoutError α}

@[simp] theorem fails_pure {b : β} : ¬(pure b : Render α β).Fails r err r' := by
  simp [Fails]

@[simp] theorem fails_throw {e : LayoutError α} :
    (throw e : Render α β).Fails r err r' ↔ err = e ∧ r' = r := by
  simp [Fails, eq_comm]

@[simp] theorem fails_lift {x : Except (LayoutError α) β} :
    (liftM x : Render α β).Fails r err r' ↔ x = .error err ∧ r' = r := by
  simp [Fails, eq_comm]

@[simp] theorem fails_newId {stem : String} : ¬(newId stem : Render α String).Fails r err r' := by
  simp [Fails]

@[simp] theorem fails_addDefinition {definition : Markup} :
    ¬(addDefinition definition : Render α Unit).Fails r err r' := by
  simp [Fails]

/-- One computation after another fails if the first does, or if the second does after the first has
succeeded. -/
@[simp] theorem fails_bind {m : Render α β} {f : β → Render α γ} :
    (m >>= f).Fails r err r' ↔
      m.Fails r err r' ∨ ∃ b s, m.Returns r b s ∧ (f b).Fails s err r' := by
  rw [Fails, outcome_bind]
  rcases h : m.outcome r with ⟨e | b, s⟩
  · simp [Fails, Returns, h]
  · simp only [Fails, Returns, h, Prod.mk.injEq, reduceCtorEq, false_and, false_or]
    constructor
    · intro failed
      exact ⟨b, s, ⟨rfl, rfl⟩, failed⟩
    · rintro ⟨_, _, ⟨⟨⟩, rfl⟩, failed⟩
      exact failed

theorem fails_bind_of_returns {m : Render α β} {f : β → Render α γ} {b : β} {s : Registry}
    (h : m.Returns r b s) : (m >>= f).Fails r err r' ↔ (f b).Fails s err r' := by
  rw [Fails, outcome_bind, h]
  rfl

@[simp] theorem fails_map {f : β → γ} {m : Render α β} :
    (f <$> m).Fails r err r' ↔ m.Fails r err r' := by
  rw [map_eq_pure_bind, fails_bind]
  simp

/-- A list of computations fails with the first of them that does. -/
theorem fails_mapM {δ : Type} {f : δ → Render α β} {xs : List δ} :
    (xs.mapM f).Fails r err r' ↔ ∃ front x rest ys s, xs = front ++ x :: rest ∧
      (front.mapM f).Returns r ys s ∧ (f x).Fails s err r' := by
  constructor
  · intro h
    induction xs generalizing r with
    | nil => simp at h
    | cons x xs ih =>
      rw [List.mapM_cons, fails_bind] at h
      rcases h with first | ⟨y, s, hy, h⟩
      · exact ⟨[], x, xs, [], r, rfl, by simp, first⟩
      · obtain ⟨front, z, rest, ys, t, rfl, hys, failed⟩ := ih (by simpa using h)
        refine ⟨x :: front, z, rest, y :: ys, t, rfl, ?_, failed⟩
        rw [List.mapM_cons, returns_bind]
        exact ⟨y, s, hy, by simpa using hys⟩
  · rintro ⟨front, x, rest, ys, s, rfl, hys, failed⟩
    rw [List.mapM_append, List.mapM_cons, fails_bind]
    exact .inr ⟨ys, s, hys, by simp [failed]⟩

/-! ## Tags -/

/-- The attributes of a node, from those of its geometry. -/
def nodeEntries [NumberText α] (style : Style α) (ctx : Context α) (geometry : Attrs) : Attrs :=
  (geometry.merge (style.attrs ctx.precision)).setAll
    (ctx.transform?.map ("transform", ·)).toList

variable [Scalar α] [NumberText α]

/-- A node is drawn if its pixels are finite and its geometry and its content are drawn. -/
theorem returns_drawTag {kind tag : String} {style : Style α} {ctx : Context α}
    {geometry : Render α Attrs} {content : Render α (Option (List Markup))} {m : Markup} :
    (drawTag kind tag style ctx geometry content).Returns r m r' ↔
      ctx.pixels.isFinite = true ∧ ∃ attrs s c, geometry.Returns r attrs s ∧
        content.Returns s c r' ∧ m = .element tag (nodeEntries style ctx attrs) c := by
  by_cases finite : ctx.pixels.isFinite = true
  · cases turn : ctx.transform? with
    | none => simp [drawTag, nodeAttrs, nodeEntries, finite, turn]
    | some t => simp [drawTag, nodeAttrs, nodeEntries, finite, turn]
  · simp [drawTag, nodeAttrs, finite]

/-- A node is not drawn if its pixels are not finite, or if its geometry or its content is not
drawn. -/
theorem fails_drawTag {kind tag : String} {style : Style α} {ctx : Context α}
    {geometry : Render α Attrs} {content : Render α (Option (List Markup))} {err : LayoutError α} :
    (drawTag kind tag style ctx geometry content).Fails r err r' ↔
      ctx.pixels.isFinite = false ∧ err = .nonFinite kind ∧ r' = r ∨
      ctx.pixels.isFinite = true ∧ (geometry.Fails r err r' ∨
        ∃ attrs s, geometry.Returns r attrs s ∧ content.Fails s err r') := by
  by_cases finite : ctx.pixels.isFinite = true
  · cases turn : ctx.transform? with
    | none => simp [drawTag, nodeAttrs, finite, turn]
    | some t => simp [drawTag, nodeAttrs, finite, turn]
  · simp [drawTag, nodeAttrs, finite]

/-! ## Guarantees -/

section Ensures

variable {δ : Type}

/-- Whenever the computation succeeds from a registry that satisfies `I`, its value satisfies `Q`
and it leaves a registry that satisfies `I`. -/
def Ensures (I : Registry → Prop) (m : Render δ β) (Q : β → Prop) : Prop :=
  ∀ ⦃r b r'⦄, I r → m.Returns r b r' → Q b ∧ I r'

namespace Ensures

variable {I : Registry → Prop} {P : β → Prop} {Q : γ → Prop}

theorem pure {b : β} (h : P b) : Ensures I (Pure.pure b : Render δ β) P := by
  intro r c r' hr hc
  obtain ⟨rfl, rfl⟩ := returns_pure.mp hc
  exact ⟨h, hr⟩

theorem lift {x : Except (LayoutError δ) β} (h : ∀ b, x = .ok b → P b) :
    Ensures I (liftM x : Render δ β) P := by
  intro r c r' hr hc
  obtain ⟨hx, rfl⟩ := returns_lift.mp hc
  exact ⟨h c hx, hr⟩

theorem bind {m : Render δ β} {f : β → Render δ γ} (hm : Ensures I m P)
    (hf : ∀ b, P b → Ensures I (f b) Q) : Ensures I (m >>= f) Q := by
  intro r c r' hr hc
  obtain ⟨b, s, hb, hc⟩ := returns_bind.mp hc
  obtain ⟨hP, hs⟩ := hm hr hb
  exact hf b hP hs hc

theorem map {m : Render δ β} {f : β → γ} (hm : Ensures I m P) (hf : ∀ b, P b → Q (f b)) :
    Ensures I (f <$> m) Q := by
  rw [map_eq_pure_bind]
  exact hm.bind fun b hb => .pure (hf b hb)

/-- A guarantee of the computation for every entry of a list. -/
theorem mapM {δ' : Type} {f : δ' → Render δ β} {xs : List δ'} (h : ∀ x ∈ xs, Ensures I (f x) P) :
    Ensures I (xs.mapM f) fun ys => ∀ y ∈ ys, P y := by
  induction xs with
  | nil =>
    rw [List.mapM_nil]
    exact .pure (by simp)
  | cons x xs ih =>
    rw [List.forall_mem_cons] at h
    rw [List.mapM_cons]
    refine h.1.bind fun y hy => (ih h.2).bind fun ys hys => .pure ?_
    rw [List.forall_mem_cons]
    exact ⟨hy, hys⟩

end Ensures

end Ensures

end SvgLayout.Render
