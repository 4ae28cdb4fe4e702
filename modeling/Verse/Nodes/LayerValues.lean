import Mathlib.Data.Finset.Card
import Mathlib.Data.Finset.Range
import Verse.Nodes.Runs

/-!
# Unsetting items of layers

When a client unsets an item of a layer, the item is to be unset in all layers below.
`vs_layer_unset_value` goes down to the child layers of a layer only after it found the
item in the layer itself.  A client may set an item in a layer and not in the layer
right above it, so that layers below keep the item.

The recursion is a depth-first search that erases the item where it finds it: what it
erased is reached through layers with the item (`Shrinks.layer`), and no child layer of
a layer where it erased the item is left with it (`Shrinks.closed`).
-/

namespace Verse

open Lib

/-- The layer without an item. -/
def VSLayer.unset (layer : VSLayer) (itemId : ℕ) : VSLayer :=
  { layer with values := layer.values.eraseP fun item => item.1 == itemId }

namespace VSData

variable {d d' d'' : VSData} {n a itemId : ℕ}

/-! ## Layers and items -/

/-- The layer has a value for an item. -/
def holds (d : VSData) (itemId a : ℕ) : Bool :=
  (d.layer a).any fun layer => layer.values.any fun item => item.1 == itemId

/-- `c` is a child layer of `a`. -/
def IsChildLayer (d : VSData) (a c : ℕ) : Prop :=
  ∃ layer, d.layer a = some layer ∧ c ∈ layer.childLayers

/-- `c` is in the subtree of the layer `a`. -/
def LayerBelow (d : VSData) : ℕ → ℕ → Prop := Relation.ReflTransGen d.IsChildLayer

/-- `c` is in the subtree of `a`, and the layers between hold the item, as `c` does. -/
def HeldBelow (d : VSData) (itemId : ℕ) : ℕ → ℕ → Prop :=
  Relation.ReflTransGen fun b c => d.IsChildLayer b c ∧ d.holds itemId c

/-- The layers and what they point at are in memory, and every layer has at most one
value for an item.  `n` is the address of the node. -/
structure LayersStored (d : VSData) (n : ℕ) : Prop where
  node_lt : n < d.next
  place : ∀ a layer, d.layer a = some layer → a < d.next ∧ a ≠ n
  child : ∀ a layer c, d.layer a = some layer → c ∈ layer.childLayers → (d.layer c).isSome
  sub : ∀ a layer r, d.layer a = some layer → r ∈ layer.subs → (d.sub r).isSome
  values : ∀ a layer, d.layer a = some layer → (layer.values.map Prod.fst).Nodup

/-- What `Layer_UnSet` of an item in the layer `a` is to do. -/
structure UnsetsSubtree (d d' : VSData) (n nodeId itemId a : ℕ) (layer : VSLayer) : Prop where
  cleared : d.holds itemId a → ∀ c, d.LayerBelow a c → d'.holds itemId c = false
  kept : d' = { d with layer := d'.layer, pushed := d'.pushed }
  others : ∀ c, d'.layer c = d.layer c ∨
    d.LayerBelow a c ∧ d'.layer c = (d.layer c).map fun l => l.unset itemId
  sent : d.holds itemId a → d'.pushed = d.pushed ++ layer.subs.filterMap fun r =>
    (d.sub r).map fun sub => ⟨sub.session, sub.prio, .layerUnsetValue nodeId layer.id itemId, a, n⟩
  nothing : d.holds itemId a = false → d' = d

/-! ## The recursion -/

theorem holds_of_layer {layer : VSLayer} (h : d.layer a = some layer) :
    d.holds itemId a = layer.values.any fun item => item.1 == itemId := by
  rw [holds, h]
  rfl

/-- A layer that has at most one value for an item has none after it was erased. -/
theorem not_any_unset {layer : VSLayer} (h : (layer.values.map Prod.fst).Nodup) :
    ((layer.unset itemId).values.any fun item => item.1 == itemId) = false := by
  obtain ⟨values, hvalues⟩ : ∃ values, layer.values = values := ⟨_, rfl⟩
  simp only [VSLayer.unset, hvalues] at h ⊢
  clear hvalues
  induction values with
  | nil => rfl
  | cons item rest ih =>
      obtain ⟨hnot, hrest⟩ := List.nodup_cons.mp h
      by_cases hitem : item.1 = itemId
      · rw [List.eraseP_cons_of_pos (by simp [hitem])]
        refine List.any_eq_false.mpr fun other hother => ?_
        have hne : other.1 ≠ itemId := by
          rintro hother'
          exact hnot (by rw [hitem, ← hother']; exact List.mem_map_of_mem hother)
        simp [hne]
      · rw [List.eraseP_cons_of_neg (by simp [hitem])]
        simp [hitem, ih hrest]

theorem unset_values_nodup {layer : VSLayer} (h : (layer.values.map Prod.fst).Nodup) :
    ((layer.unset itemId).values.map Prod.fst).Nodup :=
  h.sublist (List.eraseP_sublist.map Prod.fst)

/-- What the recursion keeps: the item is erased in some layers in `S` that held it, and
the child layers of these do not hold it any more. -/
structure Shrinks (itemId : ℕ) (S : ℕ → Prop) (d d' : VSData) : Prop where
  kept : d' = { d with layer := d'.layer }
  layer : ∀ c, d'.layer c = d.layer c ∨ S c ∧ d.holds itemId c ∧ d'.holds itemId c = false ∧
    d'.layer c = (d.layer c).map fun l => l.unset itemId
  closed : ∀ c x, d'.layer c ≠ d.layer c → d.IsChildLayer c x → d'.holds itemId x = false

variable {S T : ℕ → Prop}

theorem Shrinks.refl (S : ℕ → Prop) (d : VSData) : Shrinks itemId S d d :=
  ⟨rfl, fun _ => Or.inl rfl, fun _ _ h => absurd rfl h⟩

theorem Shrinks.mono (h : Shrinks itemId S d d') (hST : ∀ c, S c → T c) :
    Shrinks itemId T d d' := by
  refine ⟨h.kept, fun c => ?_, h.closed⟩
  rcases h.layer c with hsame | ⟨hc, hrest⟩
  · exact Or.inl hsame
  · exact Or.inr ⟨hST c hc, hrest⟩

theorem Shrinks.holds_of_holds (h : Shrinks itemId S d d') {c : ℕ} (hc : d'.holds itemId c) :
    d.holds itemId c := by
  rcases h.layer c with hsame | ⟨-, hold, -⟩
  · rw [holds, hsame] at hc
    exact hc
  · exact hold

theorem Shrinks.not_holds (h : Shrinks itemId S d d') {c : ℕ} (hc : d.holds itemId c = false) :
    d'.holds itemId c = false := by
  by_contra hne
  rw [h.holds_of_holds (by simpa using hne)] at hc
  cases hc

theorem Shrinks.isChildLayer (h : Shrinks itemId S d d') {b c : ℕ} :
    d'.IsChildLayer b c ↔ d.IsChildLayer b c := by
  rcases h.layer b with hsame | ⟨-, -, -, hunset⟩
  · rw [IsChildLayer, IsChildLayer, hsame]
  · rw [IsChildLayer, IsChildLayer, hunset]
    cases d.layer b <;> simp [VSLayer.unset]

theorem Shrinks.trans (h : Shrinks itemId S d d') (h' : Shrinks itemId S d' d'') :
    Shrinks itemId S d d'' := by
  refine ⟨by rw [h'.kept, h.kept], fun c => ?_, fun c x hne hchild => ?_⟩
  · rcases h'.layer c with hsame | ⟨hc, hholds', hnot', hunset'⟩
    · rcases h.layer c with hsame' | ⟨hc, hholds, hnot, hunset⟩
      · exact Or.inl (hsame.trans hsame')
      · refine Or.inr ⟨hc, hholds, ?_, hsame.trans hunset⟩
        rw [holds, hsame]
        exact hnot
    · rcases h.layer c with hsame' | ⟨-, -, hnot, -⟩
      · refine Or.inr ⟨hc, h.holds_of_holds hholds', hnot', ?_⟩
        rw [hunset', hsame']
      · -- what was erased before is not erased again
        rw [hnot] at hholds'
        cases hholds'
  · by_cases hsame : d'.layer c = d.layer c
    · exact h'.closed c x (fun h => hne (h.trans hsame)) (h.isChildLayer.mpr hchild)
    · exact h'.not_holds (h.closed c x hsame hchild)

theorem Shrinks.values (h : Shrinks itemId S d d')
    (hvalues : ∀ a layer, d.layer a = some layer → (layer.values.map Prod.fst).Nodup) :
    ∀ a layer, d'.layer a = some layer → (layer.values.map Prod.fst).Nodup := by
  intro a layer ha
  rcases h.layer a with hsame | ⟨-, -, -, hunset⟩
  · exact hvalues a layer (hsame.symm.trans ha)
  · rw [hunset] at ha
    obtain ⟨old, hold, rfl⟩ := Option.map_eq_some_iff.mp ha
    exact unset_values_nodup (hvalues a old hold)

theorem Shrinks.heldBelow (h : Shrinks itemId S d d') {b c : ℕ} (hbc : d'.HeldBelow itemId b c) :
    d.HeldBelow itemId b c := by
  refine Relation.ReflTransGen.mono (fun x y hxy => ?_) _ _ hbc
  exact ⟨h.isChildLayer.mp hxy.1, h.holds_of_holds hxy.2⟩

/-- The item is erased in one layer that held it. -/
structure ErasedAt (itemId a : ℕ) (layer : VSLayer) (d d' : VSData) : Prop where
  kept : d' = { d with layer := d'.layer }
  old : d.layer a = some layer
  self : d'.layer a = some (layer.unset itemId)
  other : ∀ c, c ≠ a → d'.layer c = d.layer c
  held : d.holds itemId a
  nodup : (layer.values.map Prod.fst).Nodup

section ErasedAt

variable {layer : VSLayer} (h : ErasedAt itemId a layer d d')

theorem erasedAt_setLayer (hlayer : d.layer a = some layer) (hholds : d.holds itemId a)
    (hnodup : (layer.values.map Prod.fst).Nodup) :
    ErasedAt itemId a layer d (d.setLayer a (some (layer.unset itemId))) :=
  ⟨rfl, hlayer, Function.update_self _ _ _, fun _ hc => Function.update_of_ne hc _ _, hholds, hnodup⟩

include h

theorem ErasedAt.not_holds : d'.holds itemId a = false := by
  rw [holds_of_layer h.self, not_any_unset h.nodup]

theorem ErasedAt.holds_of_holds {c : ℕ} (hc : d'.holds itemId c) : d.holds itemId c := by
  by_cases hca : c = a
  · rw [hca]
    exact h.held
  · rw [holds, h.other c hca] at hc
    exact hc

theorem ErasedAt.isChildLayer {b c : ℕ} : d'.IsChildLayer b c ↔ d.IsChildLayer b c := by
  by_cases hb : b = a
  · subst hb
    rw [IsChildLayer, IsChildLayer, h.self, h.old]
    simp [VSLayer.unset]
  · rw [IsChildLayer, IsChildLayer, h.other b hb]

theorem ErasedAt.values
    (hvalues : ∀ a layer, d.layer a = some layer → (layer.values.map Prod.fst).Nodup) :
    ∀ a layer, d'.layer a = some layer → (layer.values.map Prod.fst).Nodup := by
  intro b l hb
  by_cases hba : b = a
  · subst hba
    obtain rfl := Option.some.inj (h.self.symm.trans hb)
    exact unset_values_nodup h.nodup
  · exact hvalues b l ((h.other b hba).symm.trans hb)

/-- The item is erased in a layer, and then in the subtrees of its child layers. -/
theorem ErasedAt.shrinks (hloop : Shrinks itemId (d.HeldBelow itemId a) d' d'')
    (hvisited : ∀ c ∈ layer.childLayers, d''.holds itemId c = false) :
    Shrinks itemId (fun c => d.holds itemId a ∧ d.HeldBelow itemId a c) d d'' ∧
      d''.holds itemId a = false := by
  have hcleared := hloop.not_holds h.not_holds
  refine ⟨⟨?_, fun c => ?_, fun c x hne hchild => ?_⟩, hcleared⟩
  · rw [hloop.kept, h.kept]
  · by_cases hca : c = a
    · subst hca
      refine Or.inr ⟨⟨h.held, Relation.ReflTransGen.refl⟩, h.held, hcleared, ?_⟩
      rcases hloop.layer c with hsame | ⟨-, hagain, -⟩
      · rw [hsame, h.self, h.old]
        rfl
      · rw [h.not_holds] at hagain
        cases hagain
    · rcases hloop.layer c with hsame | ⟨hc, hc₁, hc', hunset⟩
      · exact Or.inl (hsame.trans (h.other c hca))
      · refine Or.inr ⟨⟨h.held, hc⟩, h.holds_of_holds hc₁, hc', ?_⟩
        rw [hunset, h.other c hca]
  · by_cases hca : c = a
    · subst hca
      obtain ⟨l, hl, hx⟩ := hchild
      obtain rfl := Option.some.inj (h.old.symm.trans hl)
      exact hvisited x hx
    · refine hloop.closed c x (fun hsame => hne (hsame.trans (h.other c hca))) ?_
      exact h.isChildLayer.mpr hchild

end ErasedAt

/-- The layers of the recursion hold the item, and are visited one after the other. -/
theorem vsLayerUnsetValue_succ {fuel nodeId : ℕ}
    (hvalues : ∀ a layer, d.layer a = some layer → (layer.values.map Prod.fst).Nodup)
    (h : vsLayerUnsetValue n nodeId itemId (fuel + 1) d a false = some d') :
    (d.holds itemId a = false ∧ d' = d) ∨ ∃ layer d₁, ErasedAt itemId a layer d d₁ ∧
      layer.childLayers.foldlM (fun d c => vsLayerUnsetValue n nodeId itemId fuel d c false) d₁ =
        some d' := by
  simp only [vsLayerUnsetValue, Option.bind_eq_bind, Option.bind_eq_some_iff] at h
  obtain ⟨layer, hlayer, h⟩ := h
  split at h
  · rename_i hany
    obtain ⟨d₁, hd₁, h⟩ := Option.bind_eq_some_iff.mp h
    obtain rfl : d = d₁ := Option.some.inj hd₁
    have hholds : d.holds itemId a := by rw [holds_of_layer hlayer, hany]
    exact Or.inr ⟨layer, _, erasedAt_setLayer hlayer hholds (hvalues a layer hlayer), h⟩
  · rename_i hany
    refine Or.inl ⟨?_, (Option.some.inj h).symm⟩
    rw [holds_of_layer hlayer]
    exact Bool.eq_false_iff.mpr hany

/-- **One call.**  What `vs_layer_unset_value` does below a layer. -/
theorem vsLayerUnsetValue_shrinks {fuel nodeId : ℕ}
    (hvalues : ∀ a layer, d.layer a = some layer → (layer.values.map Prod.fst).Nodup)
    (h : vsLayerUnsetValue n nodeId itemId fuel d a false = some d') :
    Shrinks itemId (fun c => d.holds itemId a ∧ d.HeldBelow itemId a c) d d' ∧
      d'.holds itemId a = false := by
  induction fuel generalizing d d' a with
  | zero => cases h
  | succ fuel ih =>
      rcases vsLayerUnsetValue_succ hvalues h with ⟨hnot, rfl⟩ | ⟨layer, d₁, herased, h⟩
      · exact ⟨Shrinks.refl _ d', hnot⟩
      have hbody : ∀ t c t', c ∈ layer.childLayers → Shrinks itemId (d.HeldBelow itemId a) d₁ t →
          vsLayerUnsetValue n nodeId itemId fuel t c false = some t' →
          Shrinks itemId (d.HeldBelow itemId a) t t' ∧ t'.holds itemId c = false := by
        intro t c t' hc ht hcall
        obtain ⟨hcall, hnot⟩ := ih (ht.values (herased.values hvalues)) hcall
        refine ⟨hcall.mono fun x hx => ?_, hnot⟩
        have hstep : d.IsChildLayer a c ∧ d.holds itemId c :=
          ⟨⟨layer, herased.old, hc⟩, herased.holds_of_holds (ht.holds_of_holds hx.1)⟩
        refine Relation.ReflTransGen.head hstep
          (Relation.ReflTransGen.mono (fun x y hxy => ?_) _ _ (ht.heldBelow hx.2))
        exact ⟨herased.isChildLayer.mp hxy.1, herased.holds_of_holds hxy.2⟩
      -- the child layers are visited one after the other
      obtain ⟨hloop, hvisited⟩ := foldlM_all (P := fun c t => t.holds itemId c = false)
        (Shrinks.refl _) Shrinks.trans (fun c t u htu hc => htu.not_holds hc) hbody h
      exact herased.shrinks hloop hvisited

/-! ## The end of the recursion -/

/-- The number of layers that hold the item. -/
def holders (d : VSData) (itemId : ℕ) : ℕ :=
  ((Finset.range d.next).filter fun c => d.holds itemId c).card

theorem holders_le (hnext : d'.next = d.next)
    (hholds : ∀ c, d'.holds itemId c → d.holds itemId c) : d'.holders itemId ≤ d.holders itemId := by
  refine Finset.card_le_card fun c hc => ?_
  rw [Finset.mem_filter, hnext] at hc
  exact Finset.mem_filter.mpr ⟨hc.1, hholds c hc.2⟩

theorem ErasedAt.holders_lt {layer : VSLayer} (h : ErasedAt itemId a layer d d')
    (ha : a < d.next) : d'.holders itemId < d.holders itemId := by
  have hnext : d'.next = d.next := by rw [h.kept]
  refine Finset.card_lt_card ⟨fun c hc => ?_, fun hsub => ?_⟩
  · rw [Finset.mem_filter, hnext] at hc
    exact Finset.mem_filter.mpr ⟨hc.1, h.holds_of_holds hc.2⟩
  · have hmem := hsub (Finset.mem_filter.mpr ⟨Finset.mem_range.mpr ha, h.held⟩)
    have hself := (Finset.mem_filter.mp hmem).2
    rw [h.not_holds] at hself
    cases hself

/-- The node itself is not a layer, so that not every address holds the item. -/
theorem LayersStored.holders_lt (h : d.LayersStored n) : d.holders itemId < d.next := by
  have hsub : (Finset.range d.next).filter (fun c => d.holds itemId c) ⊆
      (Finset.range d.next).erase n := by
    intro c hc
    obtain ⟨hlt, hholds⟩ := Finset.mem_filter.mp hc
    refine Finset.mem_erase.mpr ⟨?_, hlt⟩
    cases hlayer : d.layer c with
    | none => simp [holds, hlayer] at hholds
    | some layer => exact (h.place c layer hlayer).2
  have hlt : ((Finset.range d.next).erase n).card < d.next := by
    have hpos := h.node_lt
    rw [Finset.card_erase_of_mem (Finset.mem_range.mpr h.node_lt), Finset.card_range]
    omega
  exact Nat.lt_of_le_of_lt (Finset.card_le_card hsub) hlt

theorem LayersStored.unset (h : d.LayersStored n) (hkept : d' = { d with layer := d'.layer })
    (hlayer : ∀ c, d'.layer c = d.layer c ∨ d'.layer c = (d.layer c).map fun l => l.unset itemId) :
    d'.LayersStored n := by
  have hnext : d'.next = d.next := by rw [hkept]
  have hsubs : d'.sub = d.sub := by rw [hkept]
  -- a layer of the new state is an old one, or one without the item
  have hold : ∀ c l, d'.layer c = some l → ∃ old, d.layer c = some old ∧ (l = old ∨ l = old.unset itemId) := by
    intro c l hl
    rcases hlayer c with hsame | hunset
    · exact ⟨l, hsame.symm.trans hl, Or.inl rfl⟩
    · rw [hunset] at hl
      obtain ⟨old, hold, rfl⟩ := Option.map_eq_some_iff.mp hl
      exact ⟨old, hold, Or.inr rfl⟩
  refine ⟨by rw [hnext]; exact h.node_lt, fun c l hl => ?_, fun c l x hl hx => ?_,
    fun c l r hl hr => ?_, fun c l hl => ?_⟩
  · obtain ⟨old, hc, -⟩ := hold c l hl
    rw [hnext]
    exact h.place c old hc
  · obtain ⟨old, hc, hlold⟩ := hold c l hl
    have hx : x ∈ old.childLayers := by rcases hlold with rfl | rfl <;> exact hx
    rcases hlayer x with hsame | hunset
    · rw [hsame]
      exact h.child c old x hc hx
    · rw [hunset, Option.isSome_map]
      exact h.child c old x hc hx
  · obtain ⟨old, hc, hlold⟩ := hold c l hl
    have hr : r ∈ old.subs := by rcases hlold with rfl | rfl <;> exact hr
    rw [hsubs]
    exact h.sub c old r hc hr
  · obtain ⟨old, hc, rfl | rfl⟩ := hold c l hl
    · exact h.values c l hc
    · exact unset_values_nodup (h.values c old hc)

theorem Shrinks.stored (h : Shrinks itemId S d d') (hstored : d.LayersStored n) :
    d'.LayersStored n := by
  have hlayer : ∀ c, d'.layer c = d.layer c ∨
      d'.layer c = (d.layer c).map fun l => l.unset itemId := by
    intro c
    rcases h.layer c with hsame | ⟨-, -, -, hunset⟩
    · exact Or.inl hsame
    · exact Or.inr hunset
  exact hstored.unset h.kept hlayer

theorem ErasedAt.stored {layer : VSLayer} (h : ErasedAt itemId a layer d d')
    (hstored : d.LayersStored n) : d'.LayersStored n := by
  have hlayer : ∀ c, d'.layer c = d.layer c ∨
      d'.layer c = (d.layer c).map fun l => l.unset itemId := by
    intro c
    by_cases hca : c = a
    · subst hca
      exact Or.inr (by rw [h.self, h.old]; rfl)
    · exact Or.inl (h.other c hca)
  exact hstored.unset h.kept hlayer

/-- With a bound above the number of layers that hold the item the recursion ends. -/
theorem vsLayerUnsetValue_total {fuel nodeId : ℕ} (hstored : d.LayersStored n)
    (ha : (d.layer a).isSome) (hfuel : d.holders itemId < fuel) :
    ∃ d', vsLayerUnsetValue n nodeId itemId fuel d a false = some d' := by
  induction fuel generalizing d a with
  | zero => cases hfuel
  | succ fuel ih =>
      obtain ⟨layer, hlayer⟩ := Option.isSome_iff_exists.mp ha
      have hstep : vsLayerUnsetValue n nodeId itemId (fuel + 1) d a false =
          if layer.values.any fun item => item.1 == itemId then
            layer.childLayers.foldlM (fun d c => vsLayerUnsetValue n nodeId itemId fuel d c false)
              (d.setLayer a (some (layer.unset itemId)))
          else some d := by
        rw [vsLayerUnsetValue, hlayer]
        rfl
      rw [hstep]
      split
      · rename_i hany
        have hholds : d.holds itemId a := by rw [holds_of_layer hlayer, hany]
        have herased := erasedAt_setLayer hlayer hholds (hstored.values a layer hlayer)
        obtain ⟨d₁, hd₁⟩ : ∃ d₁, d.setLayer a (some (layer.unset itemId)) = d₁ := ⟨_, rfl⟩
        rw [hd₁] at herased ⊢
        have hless := herased.holders_lt (hstored.place a layer hlayer).1
        have hchild : ∀ c ∈ layer.childLayers, (d₁.layer c).isSome :=
          fun c hc => (herased.stored hstored).child a _ c herased.self hc
        have hbody : ∀ t c, c ∈ layer.childLayers → Shrinks itemId (fun _ => True) d₁ t →
            ∃ t', vsLayerUnsetValue n nodeId itemId fuel t c false = some t' ∧
              Shrinks itemId (fun _ => True) d₁ t' := by
          intro t c hc ht
          have hnext : t.next = d₁.next := by rw [ht.kept]
          have hcount : t.holders itemId ≤ d₁.holders itemId :=
            holders_le hnext fun c hc => ht.holds_of_holds hc
          have hstored' := ht.stored (herased.stored hstored)
          have hsome : (t.layer c).isSome := by
            rcases ht.layer c with hsame | ⟨-, -, -, hunset⟩
            · rw [hsame]
              exact hchild c hc
            · rw [hunset, Option.isSome_map]
              exact hchild c hc
          obtain ⟨t', ht'⟩ := ih hstored' hsome (by omega)
          exact ⟨t', ht', ht.trans ((vsLayerUnsetValue_shrinks hstored'.values ht').1.mono
            fun _ _ => trivial)⟩
        obtain ⟨d', hd', -⟩ := foldlM_total hbody (Shrinks.refl _ d₁)
        exact ⟨d', hd'⟩
      · exact ⟨d, rfl⟩

/-! ## The handler -/

/-- The state after a command was pushed to the sessions of some subscribers. -/
def pushTo (d : VSData) (subs : List ℕ) (cmd : OutCmd) (a n : ℕ) : VSData :=
  { d with pushed := d.pushed ++ subs.filterMap fun r =>
      (d.sub r).map fun sub => ⟨sub.session, sub.prio, cmd, a, n⟩ }

theorem foldlM_push_eq {subs : List ℕ} {cmd : OutCmd} (hsubs : ∀ r ∈ subs, (d.sub r).isSome) :
    subs.foldlM (fun (d : VSData) r => d.push r cmd a n) d = some (d.pushTo subs cmd a n) := by
  induction subs generalizing d with
  | nil => simp [pushTo]
  | cons r rest ih =>
      obtain ⟨sub, hsub⟩ := Option.isSome_iff_exists.mp (hsubs r (by simp))
      refine foldlM_cons_eq_some.mpr ⟨_, push_eq_some.mpr ⟨sub, hsub, rfl⟩, ?_⟩
      refine (ih (by exact fun x hx => hsubs x (by simp [hx]))).trans ?_
      simp [pushTo, hsub, List.append_assoc]

/-- The first call sends the command to the subscribers of the layer. -/
theorem vsLayerUnsetValue_send {fuel nodeId : ℕ} {layer : VSLayer} (hstored : d.LayersStored n)
    (hlayer : d.layer a = some layer) :
    vsLayerUnsetValue n nodeId itemId (fuel + 1) d a true =
      if d.holds itemId a then
        vsLayerUnsetValue n nodeId itemId (fuel + 1)
          (d.pushTo layer.subs (.layerUnsetValue nodeId layer.id itemId) a n) a false
      else some d := by
  have hpush : layer.subs.foldlM
      (fun (d : VSData) r => d.push r (.layerUnsetValue nodeId layer.id itemId) a n) d =
        some (d.pushTo layer.subs (.layerUnsetValue nodeId layer.id itemId) a n) :=
    foldlM_push_eq fun r hr => hstored.sub a layer r hlayer hr
  have hlayer₁ : (d.pushTo layer.subs (.layerUnsetValue nodeId layer.id itemId) a n).layer a =
      some layer := hlayer
  rw [holds_of_layer hlayer]
  cases hany : layer.values.any fun item => item.1 == itemId with
  | false => simp [vsLayerUnsetValue, hlayer, hany]
  | true =>
      simp only [vsLayerUnsetValue, hlayer, hlayer₁, hany, Option.bind_eq_bind, Option.bind_some,
        if_true, hpush]
      rfl

/-- What is erased is a part of the subtree, and all of it exactly when the layers of the
subtree that hold the item are reached through layers that hold it. -/
theorem Shrinks.cleared_iff (h : Shrinks itemId (fun c => d.holds itemId a ∧ d.HeldBelow itemId a c) d d')
    (hclear : d'.holds itemId a = false) (hholds : d.holds itemId a) :
    (∀ c, d.LayerBelow a c → d'.holds itemId c = false) ↔
      ∀ c, d.LayerBelow a c → d.holds itemId c → d.HeldBelow itemId a c := by
  refine ⟨fun hcleared c hbelow hc => ?_, fun hreached c hbelow => ?_⟩
  · rcases h.layer c with hsame | ⟨hmem, -⟩
    · have hnot := hcleared c hbelow
      rw [holds, hsame] at hnot
      exact absurd (hc.symm.trans hnot) (by decide)
    · exact hmem.2
  · by_cases hc : d.holds itemId c
    · -- the induction is along the layers that hold the item
      have hheld := hreached c hbelow hc
      clear hbelow hc
      induction hheld with
      | refl => exact hclear
      | @tail b c hb hbc ih =>
          have hb : d.holds itemId b := by
            cases hb with
            | refl => exact hholds
            | tail _ hlast => exact hlast.2
          refine h.closed b c (fun hsame => ?_) hbc.1
          rw [holds, hsame] at ih
          exact absurd (hb.symm.trans ih) (by decide)
    · exact h.not_holds (by simpa using hc)

theorem HeldBelow.layerBelow {b c : ℕ} (h : d.HeldBelow itemId b c) : d.LayerBelow b c :=
  Relation.ReflTransGen.mono (fun _ _ hxy => hxy.1) _ _ h

/-- **Unsetting an item.**  For any layers of a node that are in memory, a client that can
write the node, and any item: the handler returns, and it does what it is to do exactly
when every layer of the subtree that holds the item is reached through layers that hold
it. -/
theorem layerUnset_reaches_subtree {s nodeId layerId : ℕ} {node : VSNode} {layer : VSLayer}
    (hstored : d.LayersStored n) (hn : d.vsNodeFind nodeId = some n) (hnode : d.node n = some node)
    (hwrite : d.vsNodeCanWrite s node) (hfind : node.layers.findItem layerId = some a)
    (hlayer : d.layer a = some layer) :
    ∃ d', d.vsHandleLayerUnsetValue s nodeId layerId itemId = some d' ∧
      (UnsetsSubtree d d' n node.id itemId a layer ↔ (d.holds itemId a →
        ∀ c, d.LayerBelow a c → d.holds itemId c → d.HeldBelow itemId a c)) := by
  have hhandle : d.vsHandleLayerUnsetValue s nodeId layerId itemId =
      vsLayerUnsetValue n node.id itemId d.next d a true := by
    simp [vsHandleLayerUnsetValue, withNode, hn, hnode, hwrite, withLayer, hfind, hlayer]
  obtain ⟨fuel, hfuel⟩ : ∃ fuel, d.next = fuel + 1 :=
    Nat.exists_eq_succ_of_ne_zero (Nat.ne_of_gt (Nat.zero_lt_of_lt hstored.node_lt))
  rw [hhandle, hfuel, vsLayerUnsetValue_send hstored hlayer]
  cases hholds : d.holds itemId a with
  | false =>
      refine ⟨d, rfl, ⟨fun _ h => (by cases h), fun _ => ?_⟩⟩
      have hnot : ¬ d.holds itemId a := by simp [hholds]
      exact ⟨fun h => absurd h hnot, rfl, fun _ => Or.inl rfl, fun h => absurd h hnot, fun _ => rfl⟩
  | true =>
      obtain ⟨d₁, hd₁⟩ : ∃ d₁, d.pushTo layer.subs (.layerUnsetValue node.id layer.id itemId) a n =
        d₁ := ⟨_, rfl⟩
      have hkept : d₁ = { d with pushed := d₁.pushed } := by rw [← hd₁]; rfl
      have hstored₁ : d₁.LayersStored n := by
        rw [hkept]
        exact ⟨hstored.node_lt, hstored.place, hstored.child, hstored.sub, hstored.values⟩
      have hcount : d₁.holders itemId < fuel + 1 := by
        rw [← hfuel, hkept]
        exact hstored.holders_lt
      have hlayer₁ : d₁.layer = d.layer := by rw [hkept]
      obtain ⟨d', hd'⟩ : ∃ d', vsLayerUnsetValue n node.id itemId (fuel + 1) d₁ a false = some d' :=
        vsLayerUnsetValue_total hstored₁ (by rw [hlayer₁, hlayer]; rfl) hcount
      obtain ⟨hshrinks, hclear⟩ := vsLayerUnsetValue_shrinks hstored₁.values hd'
      have hiff := hshrinks.cleared_iff hclear (by rw [hkept]; exact hholds)
      have hsame : d₁.holds = d.holds ∧ d₁.HeldBelow = d.HeldBelow ∧ d₁.LayerBelow = d.LayerBelow := by
        rw [hkept]
        exact ⟨rfl, rfl, rfl⟩
      rw [hsame.1, hsame.2.1, hsame.2.2] at hiff
      refine ⟨d', ?_, ⟨fun hunset _ => hiff.mp (hunset.cleared hholds), fun hreached => ?_⟩⟩
      · rw [if_pos rfl, hd₁, hd']
      · refine ⟨fun _ => hiff.mpr (hreached rfl), ?_, fun c => ?_, fun _ => ?_, fun h => ?_⟩
        · rw [hshrinks.kept, hkept]
        · rcases hshrinks.layer c with hold | ⟨hmem, -, -, hunset⟩
          · exact Or.inl (hold.trans (by rw [hlayer₁]))
          · refine Or.inr ⟨?_, hunset.trans (by rw [hlayer₁])⟩
            have hheld : d.HeldBelow itemId a c := by
              rw [← hsame.2.1]
              exact hmem.2
            exact hheld.layerBelow
        · have hpushed : d'.pushed = d₁.pushed := by rw [hshrinks.kept]
          rw [hpushed, ← hd₁]
          rfl
        · cases hholds.symm.trans h

/-- A node with a layer and a child layer that hold the same item. -/
def sampleLayers : VSData :=
  { empty [⟨1001, false⟩] 0 0 with
    next := 4
    nodes := [(5, 1)]
    node := Function.update (fun _ => none) 1
      (some { vsNodeInit 5 32 0 with layers := [(0, 2), (1, 3)] })
    layer := Function.update (Function.update (fun _ => none) 2
      (some ⟨0, 0, 1, 1, none, [3], [(7, [1])], []⟩)) 3
      (some ⟨1, 1, 1, 1, some 2, [], [(7, [2])], []⟩) }

theorem sampleLayers_layer {c : ℕ} {layer : VSLayer} (h : sampleLayers.layer c = some layer) :
    (c = 2 ∧ layer = ⟨0, 0, 1, 1, none, [3], [(7, [1])], []⟩) ∨
      (c = 3 ∧ layer = ⟨1, 1, 1, 1, some 2, [], [(7, [2])], []⟩) := by
  by_cases h3 : c = 3
  · subst h3
    exact Or.inr ⟨rfl, (Option.some.inj h).symm⟩
  · by_cases h2 : c = 2
    · subst h2
      exact Or.inl ⟨rfl, (Option.some.inj h).symm⟩
    · simp [sampleLayers, Function.update_of_ne h3, Function.update_of_ne h2] at h

theorem sampleLayers_stored : sampleLayers.LayersStored 1 := by
  refine ⟨by decide, fun c l hl => ?_, fun c l x hl hx => ?_, fun c l r hl hr => ?_, fun c l hl => ?_⟩ <;>
    rcases sampleLayers_layer hl with ⟨rfl, rfl⟩ | ⟨rfl, rfl⟩
  · exact ⟨by decide, by decide⟩
  · exact ⟨by decide, by decide⟩
  · obtain rfl := List.mem_singleton.mp hx
    rfl
  · cases hx
  · cases hr
  · cases hr
  · decide
  · decide

theorem layerUnset_reaches_subtree_sample :
    ∃ d', sampleLayers.vsHandleLayerUnsetValue 0 5 0 7 = some d' ∧
      UnsetsSubtree sampleLayers d' 1 5 7 2 ⟨0, 0, 1, 1, none, [3], [(7, [1])], []⟩ := by
  have hn : sampleLayers.vsNodeFind 5 = some 1 := rfl
  have hnode : sampleLayers.node 1 =
      some { vsNodeInit 5 32 0 with layers := [(0, 2), (1, 3)] } := rfl
  have hfind : HashTable.findItem [(0, 2), (1, 3)] 0 = some 2 := rfl
  have hlayer : sampleLayers.layer 2 = some ⟨0, 0, 1, 1, none, [3], [(7, [1])], []⟩ := rfl
  have hwrite : sampleLayers.vsNodeCanWrite 0
      { vsNodeInit 5 32 0 with layers := [(0, 2), (1, 3)] } := by decide +kernel
  obtain ⟨d', hd', hiff⟩ :=
    layerUnset_reaches_subtree sampleLayers_stored hn hnode hwrite hfind hlayer
  refine ⟨d', hd', hiff.mpr fun _ c hbelow _ => ?_⟩
  refine Relation.ReflTransGen.mono (fun x y hxy => ⟨hxy, ?_⟩) _ _ hbelow
  -- the only child layer holds the item
  obtain ⟨l, hl, hy⟩ := hxy
  rcases sampleLayers_layer hl with ⟨rfl, rfl⟩ | ⟨rfl, rfl⟩
  · obtain rfl := List.mem_singleton.mp hy
    rfl
  · cases hy

/-- A client logs in, creates three layers below each other in its avatar, and sets an item
in the first and in the third one. -/
def layerEvents : List NodeEvent :=
  [.login 0 10 10 1001 false sampleInfo, .command 0 (.layerCreate 65537 0xFFFF 0xFFFF 1 1 40),
    .command 0 (.layerCreate 65537 0 0xFFFF 1 1 41), .command 0 (.layerCreate 65537 1 0xFFFF 1 1 42),
    .command 0 (.layerSetValue 65537 0 7 1 1 [1]), .command 0 (.layerSetValue 65537 2 7 1 1 [1])]

/-- The client unsets the item in the first layer, and the third one keeps it. -/
theorem grandchild_keeps_item :
    ∃ d d₁ d₂ layer, sampleInit = some d ∧ run step d layerEvents = some d₁ ∧
      d₁.vsHandleLayerUnsetValue 0 65537 0 7 = some d₂ ∧ d₁.layer 32 = some layer ∧
      d₁.holds 7 32 ∧ d₁.LayerBelow 32 34 ∧ d₂.holds 7 34 ∧
      ∀ n nodeId, ¬ UnsetsSubtree d₁ d₂ n nodeId 7 32 layer := by
  have hrun : (sampleInit.bind fun d => (run step d layerEvents).bind fun d₁ =>
      (d₁.vsHandleLayerUnsetValue 0 65537 0 7).bind fun d₂ =>
        (d₁.layer 32).bind fun layer => (d₁.layer 33).map fun child =>
          (d₁.holds 7 32, layer.childLayers, child.childLayers, d₂.holds 7 34)) =
      some (true, [33], [34], true) := by decide +kernel
  obtain ⟨d, hinit, hrun⟩ := Option.bind_eq_some_iff.mp hrun
  obtain ⟨d₁, hd₁, hrun⟩ := Option.bind_eq_some_iff.mp hrun
  obtain ⟨d₂, hd₂, hrun⟩ := Option.bind_eq_some_iff.mp hrun
  obtain ⟨layer, hlayer, hrun⟩ := Option.bind_eq_some_iff.mp hrun
  obtain ⟨child, hchild, hrun⟩ := Option.map_eq_some_iff.mp hrun
  simp only [Prod.mk.injEq] at hrun
  obtain ⟨hholds, hchildren, hgrandchildren, hleft⟩ := hrun
  have hbelow : d₁.LayerBelow 32 34 :=
    Relation.ReflTransGen.tail (Relation.ReflTransGen.single ⟨layer, hlayer, by simp [hchildren]⟩)
      ⟨child, hchild, by simp [hgrandchildren]⟩
  refine ⟨d, d₁, d₂, layer, hinit, hd₁, hd₂, hlayer, hholds, hbelow, hleft, fun n nodeId hunset => ?_⟩
  have hcleared := hunset.cleared hholds 34 hbelow
  rw [hleft] at hcleared
  cases hcleared

end VSData

end Verse
