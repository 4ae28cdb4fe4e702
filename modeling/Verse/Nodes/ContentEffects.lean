import Verse.Nodes.Effects

/-!
# Changes made by the handlers of tag groups, tags and layers

For every function of `vs_taggroup.c`, `vs_tag.c` and `vs_layer.c`: which kinds of
changes it consists of.  The functions that tell clients about entities only push
commands and add followers (`sends`), so that in their loops everything else is as it
was before the loop.
-/

namespace Verse

open Lib

namespace VSData

variable {d d' : VSData} {n r s a : ℕ}

/-! ## Sending -/

def pushes : Set EffectKind := {.push}

def sends : Set EffectKind := {.push, .follow}

/-- The values of tags may be sent, too. -/
def sendsValues : Set EffectKind := {.push, .follow, .pushSet}

theorem push_eq_some {cmd : OutCmd} :
    d.push r cmd a n = some d' ↔ ∃ sub, d.sub r = some sub ∧
      d' = { d with pushed := d.pushed ++ [⟨sub.session, sub.prio, cmd, a, n⟩] } := by
  rw [push, Option.map_eq_some_iff]
  exact exists_congr fun sub => and_congr_right fun _ => eq_comm

theorem Effects.pushes_kept (h : Effects pushes d d') : d' = { d with pushed := d'.pushed } := by
  refine h.rel (R := fun d d' => d' = { d with pushed := d'.pushed }) (fun _ => rfl)
    (fun h₁ h₂ => ?_) fun k d d' hk he => ?_
  · rw [h₂, h₁]
  · obtain rfl : k = .push := hk
    cases he with
    | push h _ _ =>
        obtain ⟨sub, _, rfl⟩ := push_eq_some.mp h
        rfl

theorem Effects.sendsValues_kept (h : Effects sendsValues d d') :
    d' = { d with entity := d'.entity, pushed := d'.pushed } := by
  refine h.rel (R := fun d d' => d' = { d with entity := d'.entity, pushed := d'.pushed })
    (fun _ => rfl) (fun h₁ h₂ => ?_) fun k d d' hk he => ?_
  · rw [h₂, h₁]
  · rcases hk with rfl | rfl | rfl
    · cases he with
      | push h _ _ =>
          obtain ⟨sub, _, rfl⟩ := push_eq_some.mp h
          rfl
    · cases he with
      | follow => rfl
    · cases he with
      | pushSet h _ _ =>
          obtain ⟨sub, _, rfl⟩ := push_eq_some.mp h
          rfl

theorem Effects.sendsValues_of_sends (h : Effects sends d d') : Effects sendsValues d d' := by
  refine h.mono fun k hk => ?_
  rcases hk with rfl | rfl
  · exact Or.inl rfl
  · exact Or.inr (Or.inl rfl)

theorem Effects.sends_kept (h : Effects sends d d') :
    d' = { d with entity := d'.entity, pushed := d'.pushed } := h.sendsValues_of_sends.sendsValues_kept

theorem Effects.sends_of_pushes (h : Effects pushes d d') : Effects sends d d' :=
  h.mono fun _ hk => Or.inl hk

/-- A command without content may be pushed to any subscriber. -/
theorem push_pushes {cmd : OutCmd} (hcmd : cmd.isContent = false)
    (h : d.push r cmd a n = some d') : Effects pushes d d' :=
  (Effect.push h (OutCmd.not_isTagSet_of_not_isContent hcmd) (by simp [hcmd])).effects rfl

theorem pushSome_pushes {cmd : Option OutCmd} (hcmd : ∀ c, cmd = some c → c.isContent = false)
    (h : d.pushSome r cmd a n = some d') : Effects pushes d d' := by
  cases cmd with
  | none =>
      obtain rfl := Option.some.inj h
      exact Effects.refl d
  | some c => exact push_pushes (hcmd c rfl) h

/-- What a loop that sends leaves as it was. -/
theorem foldlM_sends {α : Type*} {f : VSData → α → Option VSData} {l : List α}
    (hbody : ∀ t x t', x ∈ l → t = { d with entity := t.entity, pushed := t.pushed } →
      f t x = some t' → Effects sends t t')
    (h : l.foldlM f d = some d') : Effects sends d d' :=
  foldlM_rel Effects.refl Effects.trans
    (fun t x t' hx ht hf => hbody t x t' hx ht.sends_kept hf) h

theorem foldlM_pushes {α : Type*} {f : VSData → α → Option VSData} {l : List α}
    (hbody : ∀ t x t', x ∈ l → t = { d with pushed := t.pushed } → f t x = some t' →
      Effects pushes t t')
    (h : l.foldlM f d = some d') : Effects pushes d d' :=
  foldlM_rel Effects.refl Effects.trans
    (fun t x t' hx ht hf => hbody t x t' hx ht.pushes_kept hf) h

theorem Informed.kept (h : d.Informed n r) (hkept : d' = { d with pushed := d'.pushed }) :
    d'.Informed n r := by
  rw [hkept]
  exact h

theorem MayFollow.kept (h : d.MayFollow a r)
    (hkept : d' = { d with entity := d'.entity, pushed := d'.pushed }) : d'.MayFollow a r := by
  rw [hkept]
  exact h

/-- A subscriber of a node is informed about it. -/
theorem informed_of_nodeSubs {node : VSNode} (hnode : d.node n = some node)
    (hr : r ∈ node.nodeSubs) : d.Informed n r := ⟨node, hnode, Or.inl hr⟩

theorem sendCreate_sends {known : EntityState → Bool} {cmd : Option OutCmd}
    (hset : ∀ c, cmd = some c → c.isTagSet = false) (hknown : ∀ state, state.isCreated → known state)
    (hmay : d.MayFollow a r) (hinformed : d.Informed n r)
    (h : d.sendCreate known r a n cmd = some d') : Effects sends d d' := by
  simp only [sendCreate, Option.bind_eq_bind, Option.bind_eq_some_iff] at h
  obtain ⟨sub, hsub, e, he, h⟩ := h
  split at h
  · rename_i hcreated
    obtain ⟨found, hfound, h⟩ := Option.bind_eq_some_iff.mp h
    cases found with
    | true =>
        obtain rfl := Option.some.inj h
        exact Effects.refl d
    | false =>
        obtain ⟨c, hc, h⟩ := Option.bind_eq_some_iff.mp h
        obtain ⟨d₁, hd₁, h⟩ := Option.bind_eq_some_iff.mp h
        obtain rfl := Option.some.inj h
        have hpush : Effects pushes d d₁ := (Effect.push hd₁ (hset c hc) fun _ => hinformed).effects rfl
        obtain ⟨sub', hsub', rfl⟩ := push_eq_some.mp hd₁
        refine hpush.sends_of_pushes.trans (Effect.effects (k := .follow) ?_ (Or.inr rfl))
        exact Effect.follow hsub he hcreated hfound hknown hmay
  · obtain rfl := Option.some.inj h
    exact Effects.refl d

/-! ## Finding what a command names -/

theorem ite_cases {c : Prop} [Decidable c] {x : Option VSData}
    (h : (if c then x else some d) = some d') : d' = d ∨ (c ∧ x = some d') := by
  split at h
  · exact Or.inr ⟨‹_›, h⟩
  · exact Or.inl (Option.some.inj h).symm

theorem withNode_cases {nodeId : ℕ} {f : ℕ → VSNode → Option VSData}
    (h : d.withNode nodeId f = some d') :
    d' = d ∨ ∃ n node, d.vsNodeFind nodeId = some n ∧ d.node n = some node ∧
      f n node = some d' := by
  unfold withNode at h
  split at h
  · exact Or.inl (Option.some.inj h).symm
  · rename_i n hn
    obtain ⟨node, hnode, hf⟩ := Option.bind_eq_some_iff.mp h
    exact Or.inr ⟨n, node, hn, hnode, hf⟩

theorem withTagGroup_cases {node : VSNode} {taggroupId : ℕ} {f : ℕ → VSTagGroup → Option VSData}
    (h : d.withTagGroup node taggroupId f = some d') :
    d' = d ∨ ∃ g tg, node.tagGroups.findItem taggroupId = some g ∧ d.tagGroup g = some tg ∧
      f g tg = some d' := by
  unfold withTagGroup at h
  split at h
  · exact Or.inl (Option.some.inj h).symm
  · rename_i g hg
    obtain ⟨tg, htg, hf⟩ := Option.bind_eq_some_iff.mp h
    exact Or.inr ⟨g, tg, hg, htg, hf⟩

theorem withTag_cases {tg : VSTagGroup} {tagId : ℕ} {f : ℕ → VSTag → Option VSData}
    (h : d.withTag tg tagId f = some d') :
    d' = d ∨ ∃ a tag, tg.tags.findItem tagId = some a ∧ d.tag a = some tag ∧
      f a tag = some d' := by
  unfold withTag at h
  split at h
  · exact Or.inl (Option.some.inj h).symm
  · rename_i a ha
    obtain ⟨tag, htag, hf⟩ := Option.bind_eq_some_iff.mp h
    exact Or.inr ⟨a, tag, ha, htag, hf⟩

theorem withLayer_cases {node : VSNode} {layerId : ℕ} {f : ℕ → VSLayer → Option VSData}
    (h : d.withLayer node layerId f = some d') :
    d' = d ∨ ∃ a layer, node.layers.findItem layerId = some a ∧ d.layer a = some layer ∧
      f a layer = some d' := by
  unfold withLayer at h
  split at h
  · exact Or.inl (Option.some.inj h).symm
  · rename_i a ha
    obtain ⟨layer, hlayer, hf⟩ := Option.bind_eq_some_iff.mp h
    exact Or.inr ⟨a, layer, ha, hlayer, hf⟩

theorem findSub_some {l : List ℕ} (h : d.findSub s l = some (some r)) :
    r ∈ l ∧ d.subSession r = some s := by
  induction l with
  | nil => simp [findSub] at h
  | cons x rest ih =>
      rw [findSub] at h
      cases hx : d.subSession x with
      | none => simp [hx] at h
      | some t =>
          simp only [hx] at h
          by_cases hts : t = s
          · rw [if_pos hts] at h
            obtain rfl := Option.some.inj (Option.some.inj h)
            exact ⟨by simp, by rw [hx, hts]⟩
          · rw [if_neg hts] at h
            exact ⟨List.mem_cons_of_mem x (ih h).1, (ih h).2⟩

theorem findSub_none {l : List ℕ} (h : d.findSub s l = some none) :
    ∀ r ∈ l, d.subSession r ≠ some s := by
  induction l with
  | nil => simp
  | cons x rest ih =>
      rw [findSub] at h
      cases hx : d.subSession x with
      | none => simp [hx] at h
      | some t =>
          simp only [hx] at h
          by_cases hts : t = s
          · simp [hts] at h
          · rw [if_neg hts] at h
            intro r hr
            rcases List.mem_cons.mp hr with rfl | hr
            · simp [hx, hts]
            · exact ih h r hr

/-! ## Acknowledgements -/

/-- What telling the followers changes. -/
theorem sendDestroy_eq {cmd : OutCmd} (hcmd : cmd.isContent = false)
    (h : d.sendDestroy a n cmd = some d') : ∃ e, d.entity a = some e ∧
      d' = { d with entity := Function.update d.entity a (some e.sendDestroy), pushed := d'.pushed } := by
  simp only [sendDestroy, Option.bind_eq_bind, Option.bind_eq_some_iff] at h
  obtain ⟨e, he, d₁, hd₁, h⟩ := h
  obtain rfl := Option.some.inj h
  have hpush : Effects pushes d d₁ :=
    foldlM_pushes (fun t f t' _ _ hf => push_pushes hcmd hf) hd₁
  refine ⟨e, he, ?_⟩
  rw [hpush.pushes_kept]
  rfl

/-- The followers are told with a command that carries no content. -/
theorem sendDestroy_effects {cmd : OutCmd} (hcmd : cmd.isContent = false)
    (htell : ∀ d₁ e, d₁ = { d with pushed := d₁.pushed } → d.entity a = some e →
      d₁.entity a = some e → Effect .tell d₁ (d₁.setEntity a (some e.sendDestroy)))
    (h : d.sendDestroy a n cmd = some d') : Effects {.push, .tell} d d' := by
  simp only [sendDestroy, Option.bind_eq_bind, Option.bind_eq_some_iff] at h
  obtain ⟨e, he, d₁, hd₁, h⟩ := h
  obtain rfl := Option.some.inj h
  have hpush : Effects pushes d d₁ :=
    foldlM_pushes (fun t f t' _ _ hf => push_pushes hcmd hf) hd₁
  have he₁ : d₁.entity a = some e := by
    rw [hpush.pushes_kept]
    exact he
  exact (hpush.mono fun _ hk => Or.inl hk).trans
    ((htell d₁ e hpush.pushes_kept he he₁).effects (Or.inr rfl))

/-- A tag group or a tag is told about. -/
theorem sendDestroy_content {cmd : OutCmd} (hcmd : cmd.isContent = false)
    (hcontent : (d.tagGroup a).isSome ∨ (d.tag a).isSome)
    (h : d.sendDestroy a n cmd = some d') : Effects {.push, .tell} d d' := by
  refine sendDestroy_effects hcmd (fun d₁ e hkept _ he₁ => Effect.tellContent ?_ he₁) h
  rw [hkept]
  exact hcontent

/-- What is pushed when a creation is acknowledged. -/
def ackPushes (kind : EntityKind) : Set EffectKind := {k | k = .push ∨ (kind = .tag ∧ k = .pushSet)}

theorem Effects.ackPushes_kept {kind : EntityKind} (h : Effects (ackPushes kind) d d') :
    d' = { d with pushed := d'.pushed } := by
  apply h.rel (R := fun d d' => d' = { d with pushed := d'.pushed }) (fun _ => rfl)
  · intro d d' d'' h h'
    rw [h', h]
  · intro k d d' hk he
    rcases hk with rfl | ⟨-, rfl⟩
    · cases he with
      | push hpush _ _ =>
          obtain ⟨sub, _, rfl⟩ := push_eq_some.mp hpush
          rfl
    · cases he with
      | pushSet hpush _ _ =>
          obtain ⟨sub, _, rfl⟩ := push_eq_some.mp hpush
          rfl

theorem pushSome_ackPushes {kind : EntityKind} {cmd : Option OutCmd}
    (hcmd : ∀ c, cmd = some c → kind = .tag ∧ c.isTagSet ∧ d.Informed n r)
    (h : d.pushSome r cmd a n = some d') : Effects (ackPushes kind) d d' := by
  cases cmd with
  | none =>
      obtain rfl := Option.some.inj h
      exact Effects.refl d
  | some c =>
      obtain ⟨hkind, hset, hinformed⟩ := hcmd c rfl
      exact (Effect.pushSet h hset hinformed).effects (Or.inr ⟨hkind, rfl⟩)

/-- An acknowledged creation: some commands are pushed, and then the entity changes.
The value of a tag is only sent when its followers are informed about the node. -/
theorem createAck_effects {kind : EntityKind} {destroyCmd : OutCmd} {setCmd : Option OutCmd}
    (hdestroy : destroyCmd.isContent = false)
    (hset : ∀ c, setCmd = some c → kind = .tag ∧ c.isTagSet ∧
      ∀ e, d.entity a = some e → ∀ f ∈ e.folls, d.Informed n f.nodeSub)
    (h : d.createAck kind a n s destroyCmd setCmd = some d') :
    ∃ e e' d₁, d.entity a = some e ∧ e.createAck d.subSession s kind = some e' ∧
      Effects (ackPushes kind) d d₁ ∧ d' = d₁.setEntity a (some e') := by
  simp only [createAck, Option.bind_eq_bind, Option.bind_eq_some_iff] at h
  obtain ⟨e, he, e', he', d₁, hd₁, h⟩ := h
  refine ⟨e, e', d₁, he, he', ?_, (Option.some.inj h).symm⟩
  apply foldlM_rel Effects.refl Effects.trans _ hd₁
  intro t f t' hf ht hbody
  obtain ⟨t₁, ht₁, hbody⟩ := Option.bind_eq_some_iff.mp hbody
  have hvalue : Effects (ackPushes kind) t t₁ := by
    apply pushSome_ackPushes _ ht₁
    intro c hc
    split at hc
    · cases hc
    · obtain ⟨hkind, hcset, hinformed⟩ := hset c hc
      exact ⟨hkind, hcset, (hinformed e he f (List.mem_of_mem_filter hf)).kept ht.ackPushes_kept⟩
  have hdestroyed : Effects pushes t₁ t' := by
    apply pushSome_pushes _ hbody
    intro c hc
    split at hc
    · obtain rfl := Option.some.inj hc
      exact hdestroy
    · cases hc
  exact hvalue.trans (hdestroyed.mono fun _ hk => Or.inl hk)

theorem destroyAck_cases {kind : EntityKind} {destroy : VSData → Option VSData}
    (h : d.destroyAck kind a s destroy = some d') :
    ∃ e e', d.entity a = some e ∧ e.destroyAck d.subSession s kind = some e' ∧
      ((e'.folls = [] ∧ destroy (d.setEntity a (some e')) = some d') ∨
        (e'.folls ≠ [] ∧ d' = d.setEntity a (some e'))) := by
  simp only [destroyAck, Option.bind_eq_bind, Option.bind_eq_some_iff] at h
  obtain ⟨e, he, e', he', h⟩ := h
  refine ⟨e, e', he, he', ?_⟩
  split at h
  · exact Or.inl ⟨‹_›, h⟩
  · exact Or.inr ⟨‹_›, (Option.some.inj h).symm⟩

/-! ## Tags and tag groups -/

section TagGroups

variable {g nodeId taggroupId tagId dataType count type : ℕ} {node node' : VSNode}
  {tg tg' : VSTagGroup}

theorem vsTagSendCreate_sends (hnode : d.node n = some node)
    (hg : g ∈ node.tagGroups.map Prod.snd) (htg : d.tagGroup g = some tg)
    (ha : a ∈ tg.tags.map Prod.snd) (hr : r ∈ tg.subs)
    (h : d.vsTagSendCreate r n node' tg' a = some d') : Effects sends d d' := by
  obtain ⟨tag, -, h⟩ := Option.bind_eq_some_iff.mp h
  refine sendCreate_sends ?_ (fun _ _ => rfl) (Or.inr (Or.inr ⟨g, tg, htg, ha, hr⟩)) ?_ h
  · intro c hc
    rw [← Option.some.inj hc]
    rfl
  exact ⟨node, hnode, Or.inr (Or.inl ⟨g, tg, hg, htg, Or.inl hr⟩)⟩

theorem vsTaggroupSendCreate_sends (hnode : d.node n = some node)
    (hg : g ∈ node.tagGroups.map Prod.snd) (hr : r ∈ node.nodeSubs)
    (h : d.vsTaggroupSendCreate r n g = some d') : Effects sends d d' := by
  simp only [vsTaggroupSendCreate, Option.bind_eq_bind, Option.bind_eq_some_iff] at h
  obtain ⟨_, -, tg, -, h⟩ := h
  refine sendCreate_sends ?_ (fun _ _ => rfl) ?_ (informed_of_nodeSubs hnode hr) h
  · intro c hc
    rw [← Option.some.inj hc]
    rfl
  exact Or.inr (Or.inl ⟨n, node, hnode, Or.inl hg, hr⟩)

/-- The entity whose creation a session acknowledges, and what is left of the step
besides the change of the entity. -/
structure Acked (kind : EntityKind) (s a : ℕ) (d d' : VSData) : Prop where
  exists_entity : ∃ e e' d₁, d.entity a = some e ∧ e.createAck d.subSession s kind = some e' ∧
    Effects (ackPushes kind) d d₁ ∧ d' = d₁.setEntity a (some e')

theorem vsHandleTagCreateAck_acked
    (h : d.vsHandleTagCreateAck s nodeId taggroupId tagId = some d') :
    d' = d ∨ ∃ n node g tg a, d.vsNodeFind nodeId = some n ∧ d.node n = some node ∧
      node.tagGroups.findItem taggroupId = some g ∧ d.tagGroup g = some tg ∧
      tg.tags.findItem tagId = some a ∧ Acked .tag s a d d' := by
  rcases withNode_cases h with rfl | ⟨n, node, hn, hnode, h⟩
  · exact Or.inl rfl
  rcases withTagGroup_cases h with rfl | ⟨g, tg, hg, htg, h⟩
  · exact Or.inl rfl
  rcases withTag_cases h with rfl | ⟨a, tag, ha, -, h⟩
  · exact Or.inl rfl
  refine Or.inr ⟨n, node, g, tg, a, hn, hnode, hg, htg, ha, ⟨createAck_effects rfl ?_ h⟩⟩
  intro c hc
  refine ⟨rfl, ?_, fun e he f hf => ?_⟩
  · split at hc
    · rw [← Option.some.inj hc]
      rfl
    · cases hc
  exact ⟨node, hnode, Or.inr (Or.inl ⟨g, tg, HashTable.findItem_mem hg, htg,
    Or.inr ⟨a, e, HashTable.findItem_mem ha, he, f, hf, rfl⟩⟩)⟩

/-- A tag is created in a tag group of the node, marked, and sent to the subscribers of the
tag group. -/
theorem vsHandleTagCreate_cases
    (h : d.vsHandleTagCreate s nodeId taggroupId tagId dataType count type = some d') :
    d' = d ∨ ∃ n node g d₁ a, d.node n = some node ∧ d.vsNodeCanWrite s node ∧
      g ∈ node.tagGroups.map Prod.snd ∧ d.vsTagCreate g dataType count type = some (d₁, a) ∧
      Effects {.mark, .push, .follow} d₁ d' := by
  rcases withNode_cases h with rfl | ⟨n, node, -, hnode, h⟩
  · exact Or.inl rfl
  rcases ite_cases h with rfl | ⟨⟨-, hwrite⟩, h⟩
  · exact Or.inl rfl
  rcases withTagGroup_cases h with rfl | ⟨g, tg, hg, htg, h⟩
  · exact Or.inl rfl
  rcases ite_cases h with rfl | ⟨-, h⟩
  · exact Or.inl rfl
  obtain ⟨⟨d₁, a⟩, hcreate, h⟩ := Option.bind_eq_some_iff.mp h
  refine Or.inr ⟨n, node, g, d₁, a, hnode, hwrite, HashTable.findItem_mem hg, hcreate, ?_⟩
  obtain ⟨tg₁, id, tag, htg₁, -, rfl, rfl⟩ := vsTagCreate_eq hcreate
  obtain rfl := Option.some.inj (htg.symm.trans htg₁)
  refine ((Effect.mark ?_ rfl).effects (Or.inl rfl)).trans
    (Effects.mono (fun _ hk => Or.inr hk) (foldlM_sends (fun t x t' hx ht hbody => ?_) h))
  · exact Function.update_self _ _ _
  · rw [ht] at hbody
    rw [ht]
    exact vsTagSendCreate_sends hnode (HashTable.findItem_mem hg) (Function.update_self _ _ _)
      (by simp) hx hbody

theorem vsHandleTagCreate_effects
    (h : d.vsHandleTagCreate s nodeId taggroupId tagId dataType count type = some d') :
    Effects {.create, .mark, .push, .follow} d d' := by
  rcases vsHandleTagCreate_cases h with rfl | ⟨n, node, g, d₁, a, -, -, -, hcreate, heffects⟩
  · exact Effects.refl _
  have hnew : Effect .create d d₁ := Effect.newTag hcreate
  exact (hnew.effects (Or.inl rfl)).trans (heffects.mono fun _ hk => Or.inr hk)

theorem vsHandleTagDestroyAck_cases
    (h : d.vsHandleTagDestroyAck s nodeId taggroupId tagId = some d') :
    Effects {.drop, .remove} d d' := by
  rcases withNode_cases h with rfl | ⟨n, node, -, -, h⟩
  · exact Effects.refl _
  rcases withTagGroup_cases h with rfl | ⟨g, tg, -, htg, h⟩
  · exact Effects.refl _
  rcases withTag_cases h with rfl | ⟨a, tag, ha, -, h⟩
  · exact Effects.refl _
  obtain ⟨e, e', he, hack, ⟨hempty, h⟩ | ⟨hfolls, rfl⟩⟩ := destroyAck_cases h
  · exact (Effect.removeTag htg (HashTable.findItem_mem ha) he hack hempty h).effects (Or.inr rfl)
  · exact (Effect.drop he hack hfolls).effects (Or.inl rfl)

theorem vsHandleTagDestroy_effects
    (h : d.vsHandleTagDestroy s nodeId taggroupId tagId = some d') :
    Effects {.push, .tell} d d' := by
  rcases withNode_cases h with rfl | ⟨n, node, -, -, h⟩
  · exact Effects.refl _
  rcases ite_cases h with rfl | ⟨-, h⟩
  · exact Effects.refl _
  rcases withTagGroup_cases h with rfl | ⟨g, tg, -, -, h⟩
  · exact Effects.refl _
  rcases withTag_cases h with rfl | ⟨a, tag, -, htag, h⟩
  · exact Effects.refl _
  exact sendDestroy_content rfl (Or.inr (by simp [htag])) h

theorem vsHandleTagSet_effects {value : List UInt8}
    (h : d.vsHandleTagSet s nodeId taggroupId tagId dataType count value = some d') :
    Effects {.value, .pushSet} d d' := by
  rcases withNode_cases h with rfl | ⟨n, node, -, hnode, h⟩
  · exact Effects.refl _
  rcases ite_cases h with rfl | ⟨-, h⟩
  · exact Effects.refl _
  rcases withTagGroup_cases h with rfl | ⟨g, tg, hg, htg, h⟩
  · exact Effects.refl _
  rcases withTag_cases h with rfl | ⟨a, tag, -, htag, h⟩
  · exact Effects.refl _
  rcases ite_cases h with rfl | ⟨-, h⟩
  · exact Effects.refl _
  refine ((Effect.tagValue htag value).effects (Or.inl rfl)).trans
    (Effects.mono (S := {.pushSet}) (fun _ hk => Or.inr hk) ?_)
  apply foldlM_rel Effects.refl Effects.trans _ h
  intro t x t' hx ht hbody
  have hinf : (d.setTag a (some (setTagValue tag value))).Informed n x :=
    ⟨node, hnode, Or.inr (Or.inl ⟨g, tg, HashTable.findItem_mem hg, htg, Or.inl hx⟩)⟩
  have hkept := (ht.mono (T := ackPushes .tag) fun _ hk => Or.inr ⟨rfl, hk⟩).ackPushes_kept
  exact (Effect.pushSet hbody rfl (hinf.kept hkept)).effects rfl

theorem vsHandleTaggroupDestroyAck_effects
    (h : d.vsHandleTaggroupDestroyAck s nodeId taggroupId = some d') :
    Effects {.drop, .remove} d d' := by
  rcases withNode_cases h with rfl | ⟨n, node, -, hnode, h⟩
  · exact Effects.refl _
  rcases withTagGroup_cases h with rfl | ⟨g, tg, hg, -, h⟩
  · exact Effects.refl _
  obtain ⟨e, e', he, hack, ⟨hempty, h⟩ | ⟨hfolls, rfl⟩⟩ := destroyAck_cases h
  · exact (Effect.removeTagGroup hnode (HashTable.findItem_mem hg) he hack hempty h).effects (Or.inr rfl)
  · exact (Effect.drop he hack hfolls).effects (Or.inl rfl)

theorem vsHandleTaggroupCreateAck_acked
    (h : d.vsHandleTaggroupCreateAck s nodeId taggroupId = some d') :
    d' = d ∨ ∃ n node g, d.vsNodeFind nodeId = some n ∧ d.node n = some node ∧
      node.tagGroups.findItem taggroupId = some g ∧ Acked .tagGroup s g d d' := by
  rcases withNode_cases h with rfl | ⟨n, node, hn, hnode, h⟩
  · exact Or.inl rfl
  rcases withTagGroup_cases h with rfl | ⟨g, tg, hg, -, h⟩
  · exact Or.inl rfl
  exact Or.inr ⟨n, node, g, hn, hnode, hg, ⟨createAck_effects rfl (by simp) h⟩⟩

theorem vsHandleTaggroupCreate_cases
    (h : d.vsHandleTaggroupCreate s nodeId taggroupId type = some d') :
    d' = d ∨ ∃ n node d₁ g, d.node n = some node ∧ d.vsNodeCanWrite s node ∧
      d.vsTaggroupCreate n type = some (d₁, some g) ∧ Effects {.mark, .push, .follow} d₁ d' := by
  unfold vsHandleTaggroupCreate at h
  rcases ite_cases h with rfl | ⟨-, h⟩
  · exact Or.inl rfl
  rcases withNode_cases h with rfl | ⟨n, node, -, hnode, h⟩
  · exact Or.inl rfl
  rcases ite_cases h with rfl | ⟨⟨-, -, hwrite⟩, h⟩
  · exact Or.inl rfl
  obtain ⟨⟨d₁, created⟩, hcreate, h⟩ := Option.bind_eq_some_iff.mp h
  rcases vsTaggroupCreate_eq hcreate with
    ⟨rfl, rfl⟩ | ⟨node₁, id, tg, hnode₁, -, -, -, rfl, hd₁⟩
  · exact Or.inl (Option.some.inj h).symm
  obtain rfl := Option.some.inj (hnode.symm.trans hnode₁)
  refine Or.inr ⟨n, node, d₁, d.next, hnode, hwrite, hcreate, ?_⟩
  subst hd₁
  refine ((Effect.mark ?_ rfl).effects (Or.inl rfl)).trans
    (Effects.mono (fun _ hk => Or.inr hk) (foldlM_sends (fun t x t' hx ht hbody => ?_) h))
  · exact Function.update_self _ _ _
  · obtain ⟨sub, -, hbody⟩ := Option.bind_eq_some_iff.mp hbody
    split at hbody
    · rw [ht] at hbody
      rw [ht]
      exact vsTaggroupSendCreate_sends (Function.update_self _ _ _) (by simp) hx hbody
    · obtain rfl := Option.some.inj hbody
      exact Effects.refl _

theorem vsHandleTaggroupCreate_effects
    (h : d.vsHandleTaggroupCreate s nodeId taggroupId type = some d') :
    Effects {.create, .mark, .push, .follow} d d' := by
  rcases vsHandleTaggroupCreate_cases h with rfl | ⟨n, node, d₁, g, -, -, hcreate, heffects⟩
  · exact Effects.refl _
  have hnew : Effect .create d d₁ := Effect.newTagGroup hcreate
  exact (hnew.effects (Or.inl rfl)).trans (heffects.mono fun _ hk => Or.inr hk)

theorem vsHandleTaggroupDestroy_effects
    (h : d.vsHandleTaggroupDestroy s nodeId taggroupId = some d') :
    Effects {.push, .tell} d d' := by
  rcases withNode_cases h with rfl | ⟨n, node, -, -, h⟩
  · exact Effects.refl _
  rcases ite_cases h with rfl | ⟨-, h⟩
  · exact Effects.refl _
  rcases withTagGroup_cases h with rfl | ⟨g, tg, -, htg, h⟩
  · exact Effects.refl _
  exact sendDestroy_content rfl (Or.inl (by simp [htg])) h

/-- A subscriber of the node is subscribed to the tag group and sent its tags. -/
theorem vsHandleTaggroupSubscribe_effects
    (h : d.vsHandleTaggroupSubscribe s nodeId taggroupId = some d') :
    Effects {.join, .push, .follow, .pushSet} d d' := by
  rcases withNode_cases h with rfl | ⟨n, node, -, hnode, h⟩
  · exact Effects.refl _
  rcases ite_cases h with rfl | ⟨-, h⟩
  · exact Effects.refl _
  obtain ⟨subscribed, hsubscribed, h⟩ := Option.bind_eq_some_iff.mp h
  cases subscribed with
  | none =>
      obtain rfl := Option.some.inj h
      exact Effects.refl _
  | some r =>
      have hr : r ∈ node.nodeSubs := (findSub_some hsubscribed).1
      rcases withTagGroup_cases h with rfl | ⟨g, tg, hg, htg, h⟩
      · exact Effects.refl _
      obtain ⟨found, -, h⟩ := Option.bind_eq_some_iff.mp h
      split at h
      · obtain rfl := Option.some.inj h
        exact Effects.refl _
      have hmem : g ∈ node.tagGroups.map Prod.snd := HashTable.findItem_mem hg
      refine ((Effect.joinTagGroup hnode hmem htg hr).effects (Or.inl rfl)).trans
        (Effects.mono (S := sendsValues) (fun _ hk => Or.inr hk) ?_)
      apply foldlM_rel Effects.refl Effects.trans _ h
      intro t b t' hb ht hbody
      replace ht := ht.sendsValues_kept
      obtain ⟨t₁, ht₁, hbody⟩ := Option.bind_eq_some_iff.mp hbody
      obtain ⟨tag, -, hbody⟩ := Option.bind_eq_some_iff.mp hbody
      have htg' : t.tagGroup g = some { tg with subs := tg.subs ++ [r] } := by
        rw [ht]
        exact Function.update_self _ _ _
      have hnode' : t.node n = some node := by
        rw [ht]
        exact hnode
      have hcreate : Effects sends t t₁ :=
        vsTagSendCreate_sends hnode' hmem htg' (List.mem_map_of_mem hb) (by simp) ht₁
      apply hcreate.sendsValues_of_sends.trans
      split at hbody
      · -- the value is pushed in a state that differs from `t` in a follower at most
        have hinf : t₁.Informed n r := by
          refine ⟨node, ?_, Or.inl hr⟩
          rw [hcreate.sends_kept]
          exact hnode'
        exact (Effect.pushSet hbody rfl hinf).effects (Or.inr (Or.inr rfl))
      · obtain rfl := Option.some.inj hbody
        exact Effects.refl _

/-! ### Leaving -/

/-- The changes that remove what belongs to a session. -/
def leaves (s : ℕ) : Set EffectKind := {.unfollow s, .leave s, .freeSub s}

theorem freeFollower_eq_some (h : d.freeFollower a s = some d') :
    ∃ e, d.entity a = some e ∧ d' = d.setEntity a
      (some { e with folls := e.folls.eraseP (VSEntityFollower.ofSession d.subSession s) }) := by
  simp only [freeFollower, Option.bind_eq_bind, Option.bind_eq_some_iff] at h
  obtain ⟨e, he, folls, hfolls, h⟩ := h
  rw [freeFollower_eq hfolls] at h
  exact ⟨e, he, (Option.some.inj h).symm⟩

/-- The changes that take a session out of the followers of an entity, or out of the
subscribers of a tag group or a layer. -/
def detaches (s : ℕ) : Set EffectKind := {.unfollow s, .leave s}

theorem Effects.leaves_of_detaches (h : Effects (detaches s) d d') : Effects (leaves s) d d' := by
  refine h.mono fun k hk => ?_
  rcases hk with rfl | rfl
  · exact Or.inl rfl
  · exact Or.inr (Or.inl rfl)

theorem freeFollower_detaches (h : d.freeFollower a s = some d') : Effects (detaches s) d d' :=
  (Effect.unfollow h).effects (Or.inl rfl)

/-- Freeing followers changes nothing but the entities. -/
theorem foldlM_freeFollower_kept {l : HashTable}
    (h : l.foldlM (fun d b => d.freeFollower b.2 s) d = some d') :
    Effects (detaches s) d d' ∧ d' = { d with entity := d'.entity } := by
  constructor
  · exact foldlM_rel Effects.refl Effects.trans (fun t b t' _ _ hf => freeFollower_detaches hf) h
  · refine foldlM_rel (R := fun d d' : VSData => d' = { d with entity := d'.entity })
      (fun _ => rfl) (fun h₁ h₂ => by rw [h₂, h₁]) (fun t b t' _ _ hf => ?_) h
    obtain ⟨e, -, rfl⟩ := freeFollower_eq_some hf
    rfl

theorem vsTaggroupUnsubscribe_detaches (h : d.vsTaggroupUnsubscribe g s = some d') :
    Effects (detaches s) d d' := by
  simp only [vsTaggroupUnsubscribe, Option.bind_eq_bind, Option.bind_eq_some_iff] at h
  obtain ⟨tg, htg, found, hfound, h⟩ := h
  cases found with
  | none =>
      obtain rfl := Option.some.inj h
      exact Effects.refl _
  | some r =>
      obtain ⟨d₁, hd₁, h⟩ := Option.bind_eq_some_iff.mp h
      obtain rfl := Option.some.inj h
      obtain ⟨htags, hkept⟩ := foldlM_freeFollower_kept hd₁
      have htg₁ : d₁.tagGroup g = some tg := by
        rw [hkept]
        exact htg
      have hr₁ : d₁.subSession r = some s := by
        rw [hkept]
        exact (findSub_some hfound).2
      exact htags.trans ((Effect.leaveTagGroup htg₁ hr₁).effects (Or.inr rfl))

theorem vsHandleTaggroupUnsubscribe_detaches
    (h : d.vsHandleTaggroupUnsubscribe s nodeId taggroupId = some d') :
    Effects (detaches s) d d' := by
  rcases withNode_cases h with rfl | ⟨n, node, -, -, h⟩
  · exact Effects.refl _
  rcases ite_cases h with rfl | ⟨-, h⟩
  · exact Effects.refl _
  rcases withTagGroup_cases h with rfl | ⟨g, tg, -, -, h⟩
  · exact Effects.refl _
  exact vsTaggroupUnsubscribe_detaches h

end TagGroups

/-! ## Layers -/

section Layers

variable {nodeId layerId parentLayerId itemId dataType count type : ℕ} {node : VSNode}

theorem vsLayerSendCreate_sends (hnode : d.node n = some node)
    (ha : a ∈ node.layers.map Prod.snd) (hr : r ∈ node.nodeSubs)
    (h : d.vsLayerSendCreate r n a = some d') : Effects sends d d' := by
  simp only [vsLayerSendCreate, Option.bind_eq_bind, Option.bind_eq_some_iff] at h
  obtain ⟨_, -, layer, -, h⟩ := h
  refine sendCreate_sends ?_ (fun _ _ => rfl) ?_ (informed_of_nodeSubs hnode hr) h
  · intro c hc
    obtain ⟨parentId, -, rfl⟩ := Option.map_eq_some_iff.mp hc
    rfl
  exact Or.inr (Or.inl ⟨n, node, hnode, Or.inr ha, hr⟩)

theorem vsLayerUnsubscribe_detaches (h : d.vsLayerUnsubscribe a s = some d') :
    Effects (detaches s) d d' := by
  simp only [vsLayerUnsubscribe, Option.bind_eq_bind, Option.bind_eq_some_iff] at h
  obtain ⟨layer, hlayer, found, hfound, h⟩ := h
  cases found with
  | none =>
      obtain rfl := Option.some.inj h
      exact Effects.refl _
  | some r =>
      obtain rfl := Option.some.inj h
      exact (Effect.leaveLayer hlayer (findSub_some hfound).2).effects (Or.inr rfl)

/-- Nothing but what is being destroyed is left at an address. -/
def OnlyDestroying (d : VSData) (b : ℕ) : Prop := ∀ e, d.entity b = some e → e.state = .deleting

/-- Followers of layers are told; the layers stay as they are, and so do the states of
what is being destroyed. -/
def LayersTold (d d' : VSData) : Prop :=
  Effects {.push, .tell} d d' ∧ d'.layer = d.layer ∧ ∀ b, d.OnlyDestroying b → d'.OnlyDestroying b

theorem LayersTold.refl (d : VSData) : LayersTold d d := ⟨Effects.refl d, rfl, fun _ h => h⟩

theorem LayersTold.trans (h : LayersTold d d') (h' : LayersTold d' d'') : LayersTold d d'' :=
  ⟨h.1.trans h'.1, h'.2.1.trans h.2.1, fun b hb => h'.2.2 b (h.2.2 b hb)⟩

/-- The layer itself, when the layers below it are told. -/
theorem sendDestroy_layer {layer : VSLayer} (hlayer : d.layer a = some layer)
    (hchildren : ∀ c ∈ layer.childLayers, d.OnlyDestroying c)
    (h : d.sendDestroy a n (.layerDestroy nodeId layer.id) = some d') :
    LayersTold d d' ∧ d'.OnlyDestroying a := by
  have heffects : Effects {.push, .tell} d d' := by
    apply sendDestroy_effects (by rfl) _ h
    intro d₁ e hkept _ he₁
    have hlayer₁ : d₁.layer a = some layer := by rw [hkept, hlayer]
    apply Effect.tellLayer hlayer₁ he₁
    intro c hc e' he'
    rw [hkept] at he'
    exact hchildren c hc e' he'
  obtain ⟨e, -, heq⟩ := sendDestroy_eq (by rfl) h
  have hentity : d'.entity = Function.update d.entity a (some e.sendDestroy) := by rw [heq]
  have hself : d'.OnlyDestroying a := by
    intro e' he'
    rw [hentity, Function.update_self] at he'
    rw [← Option.some.inj he']
    rfl
  refine ⟨⟨heffects, by rw [heq], fun b hb => ?_⟩, hself⟩
  by_cases hba : b = a
  · rw [hba]
    exact hself
  · intro e' he'
    rw [hentity, Function.update_of_ne hba] at he'
    exact hb e' he'

/-- The followers of a layer and of the layers below are told, of the layers below
first. -/
theorem vsLayerSendDestroy_told {fuel : ℕ}
    (h : vsLayerSendDestroy n nodeId fuel d a = some d') :
    LayersTold d d' ∧ d'.OnlyDestroying a := by
  induction fuel generalizing d d' a with
  | zero => cases h
  | succ fuel ih =>
      simp only [vsLayerSendDestroy, Option.bind_eq_bind, Option.bind_eq_some_iff] at h
      obtain ⟨layer, hlayer, d₁, hd₁, h⟩ := h
      have hbelow : LayersTold d d₁ ∧ ∀ c ∈ layer.childLayers, d₁.OnlyDestroying c :=
        foldlM_all (P := fun c t => t.OnlyDestroying c) LayersTold.refl LayersTold.trans
          (fun c t u htu => htu.2.2 c) (fun t c t' _ _ hc => ih hc) hd₁
      obtain ⟨hbelow, hchildren⟩ := hbelow
      have hlayer₁ : d₁.layer a = some layer := by rw [hbelow.2.1, hlayer]
      obtain ⟨hself, hgone⟩ := sendDestroy_layer hlayer₁ hchildren h
      exact ⟨hbelow.trans hself, hgone⟩

theorem vsLayerSendDestroy_effects {fuel : ℕ}
    (h : vsLayerSendDestroy n nodeId fuel d a = some d') :
    Effects {.push, .tell} d d' ∧ d'.layer = d.layer :=
  ⟨(vsLayerSendDestroy_told h).1.1, (vsLayerSendDestroy_told h).1.2.1⟩

theorem vsHandleLayerCreateAck_acked
    (h : d.vsHandleLayerCreateAck s nodeId layerId = some d') :
    d' = d ∨ ∃ n node a, d.vsNodeFind nodeId = some n ∧ d.node n = some node ∧
      node.layers.findItem layerId = some a ∧ Acked .layer s a d d' := by
  rcases withNode_cases h with rfl | ⟨n, node, hn, hnode, h⟩
  · exact Or.inl rfl
  rcases withLayer_cases h with rfl | ⟨a, layer, ha, -, h⟩
  · exact Or.inl rfl
  exact Or.inr ⟨n, node, a, hn, hnode, ha, ⟨createAck_effects rfl (by simp) h⟩⟩

/-- A layer is created below one of the layers of the node, or as a root, and then sent. -/
theorem vsHandleLayerCreate_cases
    (h : d.vsHandleLayerCreate s nodeId parentLayerId layerId dataType count type = some d') :
    d' = d ∨ ∃ n node parent d₁ a, d.vsNodeFind nodeId = some n ∧ d.node n = some node ∧
      d.vsNodeCanWrite s node ∧
      (∀ p, parent = some p →
        parentLayerId ≠ reservedEntityId ∧ node.layers.findItem parentLayerId = some p) ∧
      d.vsLayerCreate n parent dataType count type = some (d₁, a) ∧
      Effects {.mark, .push, .follow} d₁ d' := by
  rcases withNode_cases h with rfl | ⟨n, node, hn, hnode, h⟩
  · exact Or.inl rfl
  rcases ite_cases h with rfl | ⟨⟨-, -, hwrite, -⟩, h⟩
  · exact Or.inl rfl
  obtain ⟨⟨d₁, a⟩, hcreate, h⟩ := Option.bind_eq_some_iff.mp h
  refine Or.inr ⟨n, node, _, d₁, a, hn, hnode, hwrite, fun p hp => ?_, hcreate, ?_⟩
  · split at hp
    · cases hp
    · exact ⟨‹_›, hp⟩
  obtain ⟨node₁, id, layer, layers, hnode₁, -, -, -, -, rfl, -, -, rfl⟩ := vsLayerCreate_eq hcreate
  obtain rfl := Option.some.inj (hnode.symm.trans hnode₁)
  refine ((Effect.mark ?_ rfl).effects (Or.inl rfl)).trans
    (Effects.mono (fun _ hk => Or.inr hk) (foldlM_sends (fun t x t' hx ht hbody => ?_) h))
  · exact Function.update_self _ _ _
  · rw [ht] at hbody
    rw [ht]
    exact vsLayerSendCreate_sends (Function.update_self _ _ _) (by simp) hx hbody

theorem vsHandleLayerCreate_effects
    (h : d.vsHandleLayerCreate s nodeId parentLayerId layerId dataType count type = some d') :
    Effects {.createLayer, .mark, .push, .follow} d d' := by
  rcases vsHandleLayerCreate_cases h with
    rfl | ⟨n, node, parent, d₁, a, -, hnode, -, hparent, hcreate, heffects⟩
  · exact Effects.refl _
  have hnew : Effect .createLayer d d₁ := Effect.newLayer hnode
    (fun p hp => HashTable.findItem_mem (hparent p hp).2) hcreate
  exact (hnew.effects (Or.inl rfl)).trans (heffects.mono fun _ hk => Or.inr hk)

theorem vsHandleLayerDestroyAck_effects
    (h : d.vsHandleLayerDestroyAck s nodeId layerId = some d') :
    Effects {.drop, .removeLayer} d d' := by
  rcases withNode_cases h with rfl | ⟨n, node, -, hnode, h⟩
  · exact Effects.refl _
  rcases withLayer_cases h with rfl | ⟨a, layer, ha, -, h⟩
  · exact Effects.refl _
  obtain ⟨e, e', he, hack, ⟨hempty, h⟩ | ⟨hfolls, rfl⟩⟩ := destroyAck_cases h
  · exact (Effect.removeLayer hnode (HashTable.findItem_mem ha) he hack hempty h).effects (Or.inr rfl)
  · exact (Effect.drop he hack hfolls).effects (Or.inl rfl)

theorem vsHandleLayerDestroy_effects
    (h : d.vsHandleLayerDestroy s nodeId layerId = some d') : Effects {.push, .tell} d d' := by
  rcases withNode_cases h with rfl | ⟨n, node, -, -, h⟩
  · exact Effects.refl _
  rcases ite_cases h with rfl | ⟨-, h⟩
  · exact Effects.refl _
  rcases withLayer_cases h with rfl | ⟨a, layer, -, -, h⟩
  · exact Effects.refl _
  rcases ite_cases h with rfl | ⟨-, h⟩
  · exact Effects.refl _
  exact (vsLayerSendDestroy_effects h).1

theorem vsHandleLayerSubscribe_effects
    (h : d.vsHandleLayerSubscribe s nodeId layerId = some d') :
    Effects {.join, .push} d d' := by
  rcases withNode_cases h with rfl | ⟨n, node, -, hnode, h⟩
  · exact Effects.refl _
  rcases ite_cases h with rfl | ⟨-, h⟩
  · exact Effects.refl _
  obtain ⟨subscribed, hsubscribed, h⟩ := Option.bind_eq_some_iff.mp h
  cases subscribed with
  | none =>
      obtain rfl := Option.some.inj h
      exact Effects.refl _
  | some r =>
      have hr : r ∈ node.nodeSubs := (findSub_some hsubscribed).1
      rcases withLayer_cases h with rfl | ⟨a, layer, ha, hlayer, h⟩
      · exact Effects.refl _
      rcases ite_cases h with rfl | ⟨-, h⟩
      · exact Effects.refl _
      obtain ⟨found, -, h⟩ := Option.bind_eq_some_iff.mp h
      split at h
      · obtain rfl := Option.some.inj h
        exact Effects.refl _
      have hmem : a ∈ node.layers.map Prod.snd := HashTable.findItem_mem ha
      refine ((Effect.joinLayer hnode hmem hlayer hr).effects (Or.inl rfl)).trans
        (Effects.mono (fun _ hk => Or.inr hk) (foldlM_pushes (fun t item t' _ ht hbody => ?_) h))
      have hinf : t.Informed n r := by
        rw [ht]
        exact ⟨node, hnode, Or.inl hr⟩
      exact (Effect.push hbody rfl fun _ => hinf).effects rfl

theorem vsHandleLayerUnsubscribe_detaches
    (h : d.vsHandleLayerUnsubscribe s nodeId layerId = some d') : Effects (detaches s) d d' := by
  rcases withNode_cases h with rfl | ⟨n, node, -, -, h⟩
  · exact Effects.refl _
  rcases withLayer_cases h with rfl | ⟨a, layer, -, -, h⟩
  · exact Effects.refl _
  exact vsLayerUnsubscribe_detaches h

theorem vsHandleLayerSetValue_effects {value : List UInt8}
    (h : d.vsHandleLayerSetValue s nodeId layerId itemId dataType count value = some d') :
    Effects {.value, .push} d d' := by
  rcases withNode_cases h with rfl | ⟨n, node, -, hnode, h⟩
  · exact Effects.refl _
  rcases ite_cases h with rfl | ⟨-, h⟩
  · exact Effects.refl _
  rcases withLayer_cases h with rfl | ⟨a, layer, ha, hlayer, h⟩
  · exact Effects.refl _
  rcases ite_cases h with rfl | ⟨-, h⟩
  · exact Effects.refl _
  refine ((Effect.layerValue hlayer (setItem layer.values itemId value)).effects
    (Or.inl rfl)).trans
    (Effects.mono (fun _ hk => Or.inr hk) (foldlM_pushes (fun t x t' hx ht hbody => ?_) h))
  have hinf : t.Informed n x := by
    rw [ht]
    exact ⟨node, hnode, Or.inr (Or.inr ⟨a, _, HashTable.findItem_mem ha,
      Function.update_self _ _ _, hx⟩)⟩
  exact (Effect.push hbody rfl fun _ => hinf).effects rfl

/-- A value is unset in a layer and the layers below; only the subscribers of the
first one are told. -/
theorem vsLayerUnsetValue_effects {fuel : ℕ} {send : Bool}
    (hsend : send → ∃ node, d.node n = some node ∧ a ∈ node.layers.map Prod.snd)
    (h : vsLayerUnsetValue n nodeId itemId fuel d a send = some d') :
    Effects {.value, .push} d d' := by
  induction fuel generalizing d d' a send with
  | zero => cases h
  | succ fuel ih =>
      simp only [vsLayerUnsetValue, Option.bind_eq_bind, Option.bind_eq_some_iff] at h
      obtain ⟨layer, hlayer, h⟩ := h
      rcases ite_cases h with rfl | ⟨-, h⟩
      · exact Effects.refl _
      obtain ⟨d₁, hd₁, h⟩ := Option.bind_eq_some_iff.mp h
      have hpush : Effects pushes d d₁ := by
        refine foldlM_pushes (fun t x t' hx ht hbody => ?_) hd₁
        cases send with
        | false => cases hx
        | true =>
            obtain ⟨node, hnode, ha⟩ := hsend rfl
            have hinf : d.Informed n x := ⟨node, hnode, Or.inr (Or.inr ⟨a, layer, ha, hlayer, hx⟩)⟩
            exact (Effect.push hbody rfl fun _ => hinf.kept ht).effects rfl
      have hlayer₁ : d₁.layer a = some layer := by
        rw [hpush.pushes_kept]
        exact hlayer
      refine (hpush.mono fun _ hk => Or.inr hk).trans
        (((Effect.layerValue hlayer₁ _).effects (Or.inl rfl)).trans
          (foldlM_rel Effects.refl Effects.trans (fun t c t' _ _ hc => ih (by simp) hc) h))

theorem vsHandleLayerUnsetValue_effects
    (h : d.vsHandleLayerUnsetValue s nodeId layerId itemId = some d') :
    Effects {.value, .push} d d' := by
  rcases withNode_cases h with rfl | ⟨n, node, -, hnode, h⟩
  · exact Effects.refl _
  rcases ite_cases h with rfl | ⟨-, h⟩
  · exact Effects.refl _
  rcases withLayer_cases h with rfl | ⟨a, layer, ha, -, h⟩
  · exact Effects.refl _
  exact vsLayerUnsetValue_effects (fun _ => ⟨node, hnode, HashTable.findItem_mem ha⟩) h

end Layers

end VSData

end Verse
