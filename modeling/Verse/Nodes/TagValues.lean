import Verse.Nodes.HandlerTests
import Verse.Nodes.LayerValues
import Verse.Nodes.NodeChanges

/-!
# When the values of tags are sent

Over UDP the value of a tag may overtake the command that creates the tag, so that the
server only sends it to clients that acknowledged the creation: `vs_handle_tag_create_ack`
sends it, and `vs_handle_taggroup_subscribe` sends it over streams only.
`vs_handle_tag_set` sends a new value to every subscriber of the tag group, whatever it
knows about the tag, and `vs_handle_tag_create_ack` sends it to a client that was told
that the tag is destroyed.  A `Tag_Set` is in time exactly when neither happens.
-/

namespace Verse

open Lib

namespace VSData

variable {d d' d'' : VSData} {s a n : ℕ} {P : Push → Prop}

/-! ## What is pushed -/

/-- The commands pushed from one state to a later one. -/
def newPushes (d d' : VSData) : List Push := d'.pushed.drop d.pushed.length

/-- Commands are only appended, and those that are have the property. -/
def PushesOnly (P : Push → Prop) (d d' : VSData) : Prop :=
  ∃ l, d'.pushed = d.pushed ++ l ∧ ∀ p ∈ l, P p

theorem PushesOnly.refl (d : VSData) : PushesOnly P d d := ⟨[], by simp, by simp⟩

theorem PushesOnly.trans (h : PushesOnly P d d') (h' : PushesOnly P d' d'') :
    PushesOnly P d d'' := by
  obtain ⟨l, hl, hP⟩ := h
  obtain ⟨l', hl', hP'⟩ := h'
  refine ⟨l ++ l', by rw [hl', hl, List.append_assoc], fun p hp => ?_⟩
  rcases List.mem_append.mp hp with hp | hp
  · exact hP p hp
  · exact hP' p hp

theorem PushesOnly.mono {Q : Push → Prop} (h : PushesOnly P d d') (hPQ : ∀ p, P p → Q p) :
    PushesOnly Q d d' := by
  obtain ⟨l, hl, hP⟩ := h
  exact ⟨l, hl, fun p hp => hPQ p (hP p hp)⟩

theorem PushesOnly.of_eq (h : d'.pushed = d.pushed) : PushesOnly P d d' := ⟨[], by simp [h], by simp⟩

theorem newPushes_of_append {l : List Push} (h : d'.pushed = d.pushed ++ l) :
    newPushes d d' = l := by
  unfold newPushes
  rw [h, List.drop_left]

theorem PushesOnly.newPushes (h : PushesOnly P d d') : ∀ p ∈ newPushes d d', P p := by
  obtain ⟨l, hl, hP⟩ := h
  rw [newPushes_of_append hl]
  exact hP

theorem push_pushesOnly {r : ℕ} {cmd : OutCmd} (h : d.push r cmd a n = some d')
    (hP : ∀ sub, d.sub r = some sub → P ⟨sub.session, sub.prio, cmd, a, n⟩) : PushesOnly P d d' := by
  obtain ⟨sub, hsub, rfl⟩ := push_eq_some.mp h
  exact ⟨_, rfl, by simpa using hP sub hsub⟩

/-- The command carries no value of a tag. -/
def NoValue (p : Push) : Prop := p.cmd.isTagSet = false

theorem Effect.noValue {k : EffectKind} (he : Effect k d d') (hk : k ≠ .pushSet) :
    PushesOnly NoValue d d' := by
  by_cases hpush : k = .push
  · subst hpush
    cases he with
    | push hpush hset _ => exact push_pushesOnly hpush fun _ _ => hset
  by_cases hsession : k = .session
  · subst hsession
    cases he with
    | session => exact PushesOnly.refl _
  exact PushesOnly.of_eq (he.quiet hpush hk hsession).2

theorem Effects.noValue {S : Set EffectKind} (h : Effects S d d') (hS : .pushSet ∉ S) :
    PushesOnly NoValue d d' := by
  apply h.rel PushesOnly.refl PushesOnly.trans
  intro k d d' hk he
  apply he.noValue
  rintro rfl
  exact hS hk

theorem foldlM_push_pushed {subs : List ℕ} {cmd : OutCmd}
    (h : subs.foldlM (fun (d : VSData) r => d.push r cmd a n) d = some d') :
    d' = d.pushTo subs cmd a n := by
  have hsubs : ∀ r ∈ subs, (d.sub r).isSome := by
    have hall := foldlM_all (R := fun d d' : VSData => d'.sub = d.sub)
      (P := fun r (t : VSData) => (t.sub r).isSome) (fun _ => rfl) (fun h₁ h₂ => h₂.trans h₁)
      (fun r t u hsub hr => by rwa [hsub]) (fun t r t' _ _ hbody => ?_) h
    · intro r hr
      rw [← hall.1]
      exact hall.2 r hr
    · obtain ⟨sub, hsub, rfl⟩ := push_eq_some.mp hbody
      exact ⟨rfl, by simp [hsub]⟩
  exact (Option.some.inj ((foldlM_push_eq hsubs).symm.trans h)).symm

/-! ## Records of followers -/

/-- The state of the follower record of a session, if it has one. -/
def follState (d : VSData) (s a : ℕ) : Option EntityState :=
  (d.entity a).bind fun e =>
    (e.folls.find? (VSEntityFollower.ofSession d.subSession s)).map VSEntityFollower.state

theorem follState_eq_none_iff {e : VSEntity} (he : d.entity a = some e) :
    d.follState s a = none ↔ ∀ f ∈ e.folls, f.ofSession d.subSession s = false := by
  simp [follState, he]

/-! ## Values in time -/

end VSData

/-- The session acknowledges the creation of a tag. -/
def NodeEvent.AcksTag (s : ℕ) : NodeEvent → Prop
  | .command t (.tagCreateAck ..) => t = s
  | _ => False

namespace VSData

variable {d d' : VSData} {s a n : ℕ}

/-- A value that the event makes the server send over UDP is sent to a session whose
follower record of the tag is created, or that acknowledges the creation just now. -/
def SetsInTime (d : VSData) (event : NodeEvent) : Prop :=
  ∀ d', d.step event = some d' → ∀ p ∈ newPushes d d', p.cmd.isTagSet →
    (d.session p.session).stream = false →
      d.follState p.session p.entity = some .created ∨
        (d.follState p.session p.entity = some .creating ∧ event.AcksTag p.session)

/-- The tag of a `Tag_Set` that is accepted is created for all subscribers of its tag
group, and a tag with a value whose creation is acknowledged is being created, or created,
for the session.  Sessions that use streams do not matter. -/
def TagsReady (d : VSData) : NodeEvent → Prop
  | .command s (.tagSet nodeId taggroupId tagId dataType count _) =>
      (d.session s).connected → ∀ n node g tg a tag, d.vsNodeFind nodeId = some n →
        d.node n = some node → node.tagGroups.findItem taggroupId = some g →
        d.tagGroup g = some tg → tg.tags.findItem tagId = some a → d.tag a = some tag →
        (d.vsHandleTagSetTests s n node taggroupId tagId dataType count).pass →
        ∀ r ∈ tg.subs, ∀ t, d.subSession r = some t → (d.session t).stream = false →
          d.follState t a = some .created
  | .command s (.tagCreateAck nodeId taggroupId tagId) =>
      (d.session s).connected → (d.session s).stream = false → ∀ n node g tg a tag,
        d.vsNodeFind nodeId = some n → d.node n = some node →
        node.tagGroups.findItem taggroupId = some g → d.tagGroup g = some tg →
        tg.tags.findItem tagId = some a → d.tag a = some tag → tag.initialized →
        ∀ state, d.follState s a = some state → state = .creating ∨ state = .created
  | _ => True

theorem SetsInTime.of_noValue {event : NodeEvent}
    (h : ∀ d', d.step event = some d' → PushesOnly NoValue d d') : d.SetsInTime event := by
  intro d' hstep p hp hset
  have hnone := (h d' hstep).newPushes p hp
  rw [NoValue, hset] at hnone
  cases hnone

/-! ### Subscribing to a tag group -/

/-- A client is sent the command that creates an entity, and follows it. -/
theorem sendCreate_cases {r : ℕ} {known : EntityState → Bool} {cmd : Option OutCmd}
    (h : d.sendCreate known r a n cmd = some d') :
    d' = d ∨ ∃ sub e c, d.sub r = some sub ∧ d.entity a = some e ∧ e.state.isCreated ∧
      findFollower d.subSession sub.session known e.folls = some false ∧ cmd = some c ∧
      d' = { d with
        entity := Function.update d.entity a (some (e.addFollower r))
        pushed := d.pushed ++ [⟨sub.session, sub.prio, c, a, n⟩] } := by
  simp only [sendCreate, Option.bind_eq_bind, Option.bind_eq_some_iff] at h
  obtain ⟨sub, hsub, e, he, h⟩ := h
  split at h
  · rename_i hcreated
    obtain ⟨found, hfound, h⟩ := Option.bind_eq_some_iff.mp h
    cases found with
    | true => exact Or.inl (Option.some.inj h).symm
    | false =>
        obtain ⟨c, hc, h⟩ := Option.bind_eq_some_iff.mp h
        obtain ⟨d₁, hd₁, h⟩ := Option.bind_eq_some_iff.mp h
        obtain ⟨sub', hsub', rfl⟩ := push_eq_some.mp hd₁
        obtain rfl := Option.some.inj (hsub.symm.trans hsub')
        obtain rfl := Option.some.inj h
        exact Or.inr ⟨sub, e, c, hsub, he, hcreated, hfound, hc, rfl⟩
  · exact Or.inl (Option.some.inj h).symm

theorem vsTagSendCreate_noValue {r : ℕ} {node : VSNode} {tg : VSTagGroup}
    (h : d.vsTagSendCreate r n node tg a = some d') :
    PushesOnly NoValue d d' ∧ d'.sub = d.sub ∧ d'.session = d.session := by
  obtain ⟨tag, -, h⟩ := Option.bind_eq_some_iff.mp h
  rcases sendCreate_cases h with rfl | ⟨sub, e, c, -, -, -, -, hc, rfl⟩
  · exact ⟨PushesOnly.refl _, rfl, rfl⟩
  · refine ⟨⟨_, rfl, ?_⟩, rfl, rfl⟩
    intro p hp
    rw [List.mem_singleton.mp hp, ← Option.some.inj hc]
    rfl

/-- The value of a tag is only sent to the session, which uses a stream. -/
def StreamValue (d : VSData) (s : ℕ) (p : Push) : Prop :=
  p.cmd.isTagSet → p.session = s ∧ (d.session s).stream

theorem vsHandleTaggroupSubscribe_values {nodeId taggroupId : ℕ}
    (h : d.vsHandleTaggroupSubscribe s nodeId taggroupId = some d') :
    PushesOnly (StreamValue d s) d d' := by
  rcases withNode_cases h with rfl | ⟨n, node, -, -, h⟩
  · exact PushesOnly.refl _
  rcases ite_cases h with rfl | ⟨-, h⟩
  · exact PushesOnly.refl _
  obtain ⟨subscribed, hsubscribed, h⟩ := Option.bind_eq_some_iff.mp h
  cases subscribed with
  | none =>
      obtain rfl := Option.some.inj h
      exact PushesOnly.refl _
  | some r =>
      have hr : d.subSession r = some s := (findSub_some hsubscribed).2
      rcases withTagGroup_cases h with rfl | ⟨g, tg, hg, htg, h⟩
      · exact PushesOnly.refl _
      obtain ⟨found, -, h⟩ := Option.bind_eq_some_iff.mp h
      split at h
      · obtain rfl := Option.some.inj h
        exact PushesOnly.refl _
      -- the subscriber and the session are the same in every round
      have hloop := foldlM_rel
        (R := fun t t' : VSData => PushesOnly (StreamValue d s) t t' ∧ t'.sub = t.sub ∧
          t'.session = t.session)
        (fun t => ⟨PushesOnly.refl t, rfl, rfl⟩)
        (fun h₁ h₂ => ⟨h₁.1.trans h₂.1, h₂.2.1.trans h₁.2.1, h₂.2.2.trans h₁.2.2⟩)
        (fun t b t' _ ht hbody => ?_) h
      · exact hloop.1
      obtain ⟨-, hsub, hsession⟩ := ht
      obtain ⟨t₁, ht₁, hbody⟩ := Option.bind_eq_some_iff.mp hbody
      obtain ⟨tag, -, hbody⟩ := Option.bind_eq_some_iff.mp hbody
      have hcreate := vsTagSendCreate_noValue ht₁
      refine ⟨(hcreate.1.mono fun p hp hset => ?_).trans ?_, ?_⟩
      · rw [hp] at hset
        cases hset
      · split at hbody
        · rename_i hvalue
          refine push_pushesOnly hbody fun sub hsub₁ _ => ⟨?_, ?_⟩
          · rw [hcreate.2.1, hsub] at hsub₁
            have hsub₀ : d.sub r = some sub := hsub₁
            rw [subSession, hsub₀] at hr
            exact Option.some.inj hr
          · rw [hcreate.2.2, hsession] at hvalue
            exact hvalue.1
        · obtain rfl := Option.some.inj hbody
          exact PushesOnly.refl _
      · split at hbody
        · obtain ⟨sub, -, rfl⟩ := push_eq_some.mp hbody
          exact hcreate.2
        · obtain rfl := Option.some.inj hbody
          exact hcreate.2

/-! ### Setting a tag -/

theorem mem_pushTo {subs : List ℕ} {cmd : OutCmd} {p : Push} :
    p ∈ newPushes d (d.pushTo subs cmd a n) ↔
      ∃ r ∈ subs, ∃ sub, d.sub r = some sub ∧ p = ⟨sub.session, sub.prio, cmd, a, n⟩ := by
  rw [newPushes_of_append rfl, List.mem_filterMap]
  constructor
  · rintro ⟨r, hr, hp⟩
    obtain ⟨sub, hsub, rfl⟩ := Option.map_eq_some_iff.mp hp
    exact ⟨r, hr, sub, hsub, rfl⟩
  · rintro ⟨r, hr, sub, hsub, rfl⟩
    exact ⟨r, hr, by simp [hsub]⟩

/-- A `Tag_Set` that passes the tests is sent to all subscribers of the tag group. -/
theorem vsHandleTagSet_of_pass {nodeId taggroupId tagId dataType count g : ℕ} {value : List UInt8}
    {node : VSNode} {tg : VSTagGroup} {tag : VSTag} (hn : d.vsNodeFind nodeId = some n)
    (hnode : d.node n = some node) (hg : node.tagGroups.findItem taggroupId = some g)
    (htg : d.tagGroup g = some tg) (ha : tg.tags.findItem tagId = some a)
    (htag : d.tag a = some tag)
    (hpass : (d.vsHandleTagSetTests s n node taggroupId tagId dataType count).pass)
    (h : d.vsHandleTagSet s nodeId taggroupId tagId dataType count value = some d') :
    d' = (d.setTag a (some (setTagValue tag value))).pushTo tg.subs
      (tagSetCmd node tg (setTagValue tag value)) a n := by
  simp [HandlerTests.pass, vsHandleTagSetTests, orEnd, testTagGroup_eq hg htg,
    testTag_eq hg htg ha htag] at hpass
  obtain ⟨hcreated, hwrite, htype, hcount⟩ := hpass
  simp only [vsHandleTagSet, withNode, hn, hnode, Option.bind_some, hcreated, hwrite, and_self,
    if_true, withTagGroup, hg, htg, withTag, ha, htag, htype, hcount] at h
  exact foldlM_push_pushed h

theorem setsInTime_tagSet_iff {nodeId taggroupId tagId dataType count : ℕ} {value : List UInt8}
    (hconnected : (d.session s).connected)
    (h : d.vsHandleTagSet s nodeId taggroupId tagId dataType count value = some d') :
    d.SetsInTime (.command s (.tagSet nodeId taggroupId tagId dataType count value)) ↔
      d.TagsReady (.command s (.tagSet nodeId taggroupId tagId dataType count value)) := by
  have hstep : d.step (.command s (.tagSet nodeId taggroupId tagId dataType count value)) =
      some d' := by
    rw [step, if_pos hconnected]
    exact h
  constructor
  · intro hsets _ n node g tg a tag hn hnode hg htg ha htag hpass r hr t ht hstream
    have hd' := vsHandleTagSet_of_pass hn hnode hg htg ha htag hpass h
    obtain ⟨sub, hsub, rfl⟩ := Option.map_eq_some_iff.mp ht
    have hmem : (⟨sub.session, sub.prio, tagSetCmd node tg (setTagValue tag value), a, n⟩ : Push) ∈
        newPushes d d' := by
      rw [hd']
      exact mem_pushTo.mpr ⟨r, hr, sub, hsub, rfl⟩
    rcases hsets d' hstep _ hmem rfl hstream with hcreated | ⟨-, hack⟩
    · exact hcreated
    · exact hack.elim
  · intro hready d'' hstep' p hp hset hstream
    obtain rfl := Option.some.inj (hstep.symm.trans hstep')
    left
    -- nothing is sent unless the tag is found and the tests pass
    have hnone : d' ≠ d := by
      rintro rfl
      simp [newPushes] at hp
    rcases withNode_cases h with hd | ⟨n, node, hn, hnode, hbody⟩
    · exact absurd hd hnone
    rcases ite_cases hbody with hd | ⟨⟨hcreated, hwrite⟩, hbody⟩
    · exact absurd hd hnone
    rcases withTagGroup_cases hbody with hd | ⟨g, tg, hg, htg, hbody⟩
    · exact absurd hd hnone
    rcases withTag_cases hbody with hd | ⟨a, tag, ha, htag, hbody⟩
    · exact absurd hd hnone
    rcases ite_cases hbody with hd | ⟨⟨htype, hcount⟩, -⟩
    · exact absurd hd hnone
    have hpass : (d.vsHandleTagSetTests s n node taggroupId tagId dataType count).pass := by
      simp [HandlerTests.pass, vsHandleTagSetTests, orEnd, testTagGroup_eq hg htg,
        testTag_eq hg htg ha htag, hcreated, hwrite, htype, hcount]
    rw [vsHandleTagSet_of_pass hn hnode hg htg ha htag hpass h] at hp
    obtain ⟨r, hr, sub, hsub, rfl⟩ := mem_pushTo.mp hp
    have hsession : d.subSession r = some sub.session := by
      have hsub' : d.sub r = some sub := hsub
      simp [subSession, hsub']
    exact hready hconnected n node g tg a tag hn hnode hg htg ha htag hpass r hr sub.session
      hsession hstream

/-! ### Acknowledged creations -/

theorem pushSome_cases {r : ℕ} {cmd : Option OutCmd} (h : d.pushSome r cmd a n = some d') :
    (cmd = none ∧ d' = d) ∨ ∃ c sub, cmd = some c ∧ d.sub r = some sub ∧
      d' = { d with pushed := d.pushed ++ [⟨sub.session, sub.prio, c, a, n⟩] } := by
  cases cmd with
  | none => exact Or.inl ⟨rfl, (Option.some.inj h).symm⟩
  | some c =>
      obtain ⟨sub, hsub, rfl⟩ := push_eq_some.mp h
      exact Or.inr ⟨c, sub, rfl, hsub, rfl⟩

/-- The body of the loop over the followers of the session: a value, and the command that
destroys the tag, may be pushed. -/
theorem ackBody_cases {r : ℕ} {setCmd destroyCmd : Option OutCmd}
    (h : ((d.pushSome r setCmd a n).bind fun d => d.pushSome r destroyCmd a n) = some d')
    (hr : d.subSession r = some s) (hdestroy : ∀ c, destroyCmd = some c → c.isTagSet = false) :
    ∃ prio l, d' = { d with
      pushed := d.pushed ++ ((setCmd.toList.map fun c => (⟨s, prio, c, a, n⟩ : Push)) ++ l) } ∧
        ∀ p ∈ l, NoValue p := by
  obtain ⟨d₁, hd₁, h⟩ := Option.bind_eq_some_iff.mp h
  obtain ⟨sub, hsub, rfl⟩ := Option.map_eq_some_iff.mp hr
  have hset : d₁ = { d with
      pushed := d.pushed ++ setCmd.toList.map fun c => (⟨sub.session, sub.prio, c, a, n⟩ : Push) } := by
    rcases pushSome_cases hd₁ with ⟨rfl, rfl⟩ | ⟨c, sub₁, rfl, hsub₁, rfl⟩
    · simp
    · obtain rfl := Option.some.inj (hsub.symm.trans hsub₁)
      rfl
  rcases pushSome_cases h with ⟨-, rfl⟩ | ⟨c, sub₁, hc, -, rfl⟩
  · exact ⟨sub.prio, [], by rw [hset, List.append_nil], by simp⟩
  · refine ⟨sub.prio, [⟨sub₁.session, sub₁.prio, c, a, n⟩], ?_, ?_⟩
    · rw [hset]
      simp only [List.append_assoc]
    · intro p hp
      rw [List.mem_singleton.mp hp]
      exact hdestroy c hc

/-- The value of the tag, pushed to the session. -/
def IsAckSet (s a : ℕ) (setCmd : Option OutCmd) (p : Push) : Prop :=
  p.session = s ∧ p.entity = a ∧ some p.cmd = setCmd

/-- One round pushes the value when the follower is not created. -/
theorem ackRound_values {f : VSEntityFollower} {setCmd destroyCmd : Option OutCmd}
    (h : ((d.pushSome f.nodeSub (if f.state = .created then none else setCmd) a n).bind fun d =>
      d.pushSome f.nodeSub destroyCmd a n) = some d')
    (hown : d.subSession f.nodeSub = some s)
    (hdestroy : ∀ c, destroyCmd = some c → c.isTagSet = false) :
    d'.sub = d.sub ∧ ∃ l, d'.pushed = d.pushed ++ l ∧
      (∀ p ∈ l, p.cmd.isTagSet → IsAckSet s a setCmd p) ∧
      (f.state ≠ .created → setCmd.isSome → ∃ p ∈ l, IsAckSet s a setCmd p) := by
  obtain ⟨prio, l, rfl, hl⟩ := ackBody_cases h hown hdestroy
  refine ⟨rfl, _, rfl, fun p hp hset => ?_, fun hstate hsome => ?_⟩
  · rcases List.mem_append.mp hp with hp | hp
    · obtain ⟨c, hc, rfl⟩ := List.mem_map.mp hp
      refine ⟨rfl, rfl, ?_⟩
      split at hc
      · simp at hc
      · exact (Option.mem_toList.mp hc).symm
    · have hnone := hl p hp
      rw [NoValue, hset] at hnone
      cases hnone
  · obtain ⟨c, hc⟩ := Option.isSome_iff_exists.mp hsome
    exact ⟨⟨s, prio, c, a, n⟩, by simp [hstate, hc], rfl, rfl, hc.symm⟩

/-- Nothing but the value of the tag is pushed, to the session only, and it is pushed when a
follower of the session is not created. -/
theorem createAck_values {destroyCmd : OutCmd} {setCmd : Option OutCmd}
    (hdestroy : destroyCmd.isTagSet = false)
    (h : d.createAck .tag a n s destroyCmd setCmd = some d') :
    ∃ e, d.entity a = some e ∧
      (∀ p ∈ newPushes d d', p.cmd.isTagSet → IsAckSet s a setCmd p ∧
        ∃ f ∈ e.folls, f.ofSession d.subSession s) ∧
      ∀ f ∈ e.folls, f.ofSession d.subSession s → f.state ≠ .created → setCmd.isSome →
        ∃ p ∈ newPushes d d', IsAckSet s a setCmd p := by
  simp only [createAck, Option.bind_eq_bind, Option.bind_eq_some_iff] at h
  obtain ⟨e, he, e', he', d₁, hd₁, h⟩ := h
  obtain rfl := Option.some.inj h
  have hpushed : newPushes d (d₁.setEntity a (some e')) = newPushes d d₁ := rfl
  have hloop := foldlM_all
    (R := fun t t' : VSData => t'.sub = t.sub ∧
      PushesOnly (fun p => p.cmd.isTagSet → IsAckSet s a setCmd p ∧
        ∃ f ∈ e.folls, f.ofSession d.subSession s) t t')
    (P := fun f (t : VSData) => f.state ≠ .created → setCmd.isSome →
      ∃ l, t.pushed = d.pushed ++ l ∧ ∃ p ∈ l, IsAckSet s a setCmd p)
    (fun t => ⟨rfl, PushesOnly.refl t⟩) (fun h₁ h₂ => ⟨h₂.1.trans h₁.1, h₁.2.trans h₂.2⟩)
    (fun f t u hlater hf hstate hsome => ?_) (fun t f t' hf ht hbody => ?_) hd₁
  · refine ⟨e, he, fun p hp => hloop.1.2.newPushes p hp, fun f hf hown hstate hsome => ?_⟩
    obtain ⟨l, hl, p, hp, hset⟩ := hloop.2 f (List.mem_filter.mpr ⟨hf, hown⟩) hstate hsome
    rw [hpushed, newPushes_of_append hl]
    exact ⟨p, hp, hset⟩
  · obtain ⟨l, hl, p, hp, hset⟩ := hf hstate hsome
    obtain ⟨-, l', hl', -⟩ := hlater
    exact ⟨l ++ l', by rw [hl', hl, List.append_assoc], p, List.mem_append_left l' hp, hset⟩
  · have hmem := List.mem_filter.mp hf
    have hown : t.subSession f.nodeSub = some s := by
      have hof := hmem.2
      simp only [VSEntityFollower.ofSession, beq_iff_eq] at hof
      rwa [subSession, ht.1]
    obtain ⟨hsub, l, hl, honly, hpush⟩ := ackRound_values hbody hown (by
      intro c hc
      split at hc
      · rw [← Option.some.inj hc]
        exact hdestroy
      · cases hc)
    refine ⟨⟨hsub, l, hl, fun p hp hset => ⟨honly p hp hset, f, hmem.1, hmem.2⟩⟩,
      fun hstate hsome => ?_⟩
    obtain ⟨l₀, hl₀, -⟩ := ht.2
    obtain ⟨p, hp, hset⟩ := hpush hstate hsome
    exact ⟨l₀ ++ l, by rw [hl, hl₀, List.append_assoc], p, List.mem_append_right l₀ hp, hset⟩

theorem setsInTime_tagCreateAck_iff {nodeId taggroupId tagId : ℕ}
    (hconnected : (d.session s).connected)
    (h : d.vsHandleTagCreateAck s nodeId taggroupId tagId = some d') :
    d.SetsInTime (.command s (.tagCreateAck nodeId taggroupId tagId)) ↔
      d.TagsReady (.command s (.tagCreateAck nodeId taggroupId tagId)) := by
  have hstep : d.step (.command s (.tagCreateAck nodeId taggroupId tagId)) = some d' := by
    rw [step, if_pos hconnected]
    exact h
  constructor
  · intro hsets _ hstream n node g tg a tag hn hnode hg htg ha htag hinit state hstate
    simp only [vsHandleTagCreateAck, withNode, hn, hnode, Option.bind_some, withTagGroup, hg, htg,
      withTag, ha, htag, hinit, if_true] at h
    obtain ⟨e, he, -, hpush⟩ := createAck_values rfl h
    simp only [follState, he, Option.bind_some, Option.map_eq_some_iff] at hstate
    obtain ⟨f, hfind, rfl⟩ := hstate
    by_contra hnot
    rw [not_or] at hnot
    obtain ⟨p, hp, hsession, hentity, hcmd⟩ := hpush f (List.mem_of_find?_eq_some hfind)
      (List.find?_some hfind) hnot.2 rfl
    have hset : p.cmd.isTagSet := by
      rw [Option.some.inj hcmd]
      rfl
    have hintime := hsets d' hstep p hp hset (by rw [hsession]; exact hstream)
    simp only [hsession, hentity, follState, he, Option.bind_some, hfind, Option.map_some,
      Option.some.injEq] at hintime
    rcases hintime with hcreated | ⟨hcreating, -⟩
    · exact hnot.2 hcreated
    · exact hnot.1 hcreating
  · intro hready d'' hstep' p hp hset hstream
    obtain rfl := Option.some.inj (hstep.symm.trans hstep')
    have hnone : d' ≠ d := by
      rintro rfl
      simp [newPushes] at hp
    rcases withNode_cases h with hd | ⟨n, node, hn, hnode, hbody⟩
    · exact absurd hd hnone
    rcases withTagGroup_cases hbody with hd | ⟨g, tg, hg, htg, hbody⟩
    · exact absurd hd hnone
    rcases withTag_cases hbody with hd | ⟨a, tag, ha, htag, hbody⟩
    · exact absurd hd hnone
    obtain ⟨e, he, honly, -⟩ := createAck_values rfl hbody
    obtain ⟨⟨hsession, hentity, hcmd⟩, f, hf, hown⟩ := honly p hp hset
    have hinit : tag.initialized := by
      by_contra hnot
      rw [if_neg hnot] at hcmd
      cases hcmd
    rw [hsession] at hstream ⊢
    rw [hentity]
    cases hstate : d.follState s a with
    | none =>
        have hother := (follState_eq_none_iff he).mp hstate f hf
        rw [hown] at hother
        cases hother
    | some state =>
        rcases hready hconnected hstream n node g tg a tag hn hnode hg htg ha htag hinit state
          hstate with rfl | rfl
        · exact Or.inr ⟨rfl, rfl⟩
        · exact Or.inl rfl

/-! ## Runs -/

/-- **One step.**  Values are sent in time exactly when the tags are ready. -/
theorem step_setsInTime_iff {event : NodeEvent} (hfresh : d.Fresh) (hstep : d.step event = some d') :
    d.SetsInTime event ↔ d.TagsReady event := by
  have hquiet : .pushSet ∉ event.kinds → d.SetsInTime event := by
    intro hkinds
    apply SetsInTime.of_noValue
    intro d'' hstep'
    exact (step_effects hfresh hstep').noValue hkinds
  cases event with
  | login s heap heap' userId stream info =>
      exact iff_of_true (hquiet (by simp [NodeEvent.kinds, builds])) trivial
  | disconnect s => exact iff_of_true (hquiet (by simp [NodeEvent.kinds, departs])) trivial
  | command s cmd =>
      by_cases hconnected : (d.session s).connected
      · have hcmd : d.vsHandleNodeCmd s cmd = some d' := by
          rwa [step, if_pos hconnected] at hstep
        cases cmd with
        | tagSet => exact setsInTime_tagSet_iff hconnected hcmd
        | tagCreateAck => exact setsInTime_tagCreateAck_iff hconnected hcmd
        | taggroupSubscribe nodeId taggroupId =>
            refine iff_of_true ?_ trivial
            intro d'' hstep' p hp hset hstream
            obtain rfl := Option.some.inj (hstep.symm.trans hstep')
            have hvalue := (vsHandleTaggroupSubscribe_values hcmd).newPushes p hp hset
            rw [← hvalue.1, hstream] at hvalue
            cases hvalue.2
        | _ => exact iff_of_true (hquiet (by simp [NodeEvent.kinds, NodeCmd.kinds, leaves])) trivial
      · -- the commands of a session that is not connected are not handled
        have hsame : ∀ d'', d.step (.command s cmd) = some d'' → PushesOnly NoValue d d'' := by
          intro d'' hstep'
          rw [step, if_neg hconnected] at hstep'
          obtain rfl := Option.some.inj hstep'
          exact PushesOnly.refl _
        refine iff_of_true (SetsInTime.of_noValue hsame) ?_
        cases cmd with
        | tagSet => exact fun h => absurd h hconnected
        | tagCreateAck => exact fun h => absurd h hconnected
        | _ => trivial

/-- **Values of tags.**  In every run from the nodes the server starts with: all values that
are sent over UDP are sent to sessions whose follower record of the tag is created, if and
only if every `Tag_Set` that is accepted is for a tag that is created for all subscribers of
its tag group, and no creation of a tag is acknowledged after the session was told that the
tag is destroyed. -/
theorem tag_values_in_time_iff {users : List VSUser} {superUser otherUsers : ℕ}
    {realname : ℕ → List UInt8} (hinit : vsNodesInit users superUser otherUsers realname = some d)
    {events : List NodeEvent} (hrun : run step d events = some d') :
    Admissible step SetsInTime d events ↔ Admissible step TagsReady d events := by
  apply admissible_congr_of_run _ _ (vsNodesInit_fresh hinit) hrun
  · intro d event d' hfresh hstep
    exact step_setsInTime_iff hfresh hstep
  · intro d event d' hfresh hstep
    exact step_fresh hfresh hstep

/-- A client creates a tag in a tag group it is subscribed to. -/
def tagEvents : List NodeEvent :=
  [.login 0 10 10 1001 false sampleInfo, .command 0 (.nodeSubscribe 65537),
    .command 0 (.nodeCreate 10 1001 65537 0xFFFFFFFF 40), .command 0 (.nodeSubscribe 65539),
    .command 0 (.taggroupCreate 65539 0xFFFF 7), .command 0 (.taggroupSubscribe 65539 0),
    .command 0 (.tagCreate 65539 0 0xFFFF 1 1 9)]

theorem tag_values_in_time_sample :
    ∃ d d', sampleInit = some d ∧ run step d tagEvents = some d' ∧
      (Admissible step SetsInTime d tagEvents ↔ Admissible step TagsReady d tagEvents) := by
  have hrun : (sampleInit.bind fun d => (run step d tagEvents).map fun _ => ()) = some () := by
    decide +kernel
  obtain ⟨d, hinit, hrun⟩ := Option.bind_eq_some_iff.mp hrun
  obtain ⟨d', hd', -⟩ := Option.map_eq_some_iff.mp hrun
  exact ⟨d, d', hinit, hd', tag_values_in_time_iff hinit hd'⟩

/-- The client sets the tag before it acknowledges the creation: the value is sent to it over
UDP, with the tag still being created. -/
theorem tag_value_before_create :
    ∃ d d₁, sampleInit = some d ∧ run step d tagEvents = some d₁ ∧
      d₁.follState 0 37 = some .creating ∧
      ¬ d₁.SetsInTime (.command 0 (.tagSet 65539 0 0 1 1 [5])) := by
  have hrun : (sampleInit.bind fun d => (run step d tagEvents).bind fun d₁ =>
      (d₁.step (.command 0 (.tagSet 65539 0 0 1 1 [5]))).map fun d₂ =>
        (newPushes d₁ d₂, (d₁.session 0).stream, d₁.follState 0 37)) =
      some ([⟨0, 128, .tagSet 65539 0 0 1 1 (some [5]), 37, 33⟩], false, some .creating) := by
    decide +kernel
  obtain ⟨d, hinit, hrun⟩ := Option.bind_eq_some_iff.mp hrun
  obtain ⟨d₁, hd₁, hrun⟩ := Option.bind_eq_some_iff.mp hrun
  obtain ⟨d₂, hd₂, hrun⟩ := Option.map_eq_some_iff.mp hrun
  simp only [Prod.mk.injEq] at hrun
  obtain ⟨hpushes, hstream, hstate⟩ := hrun
  refine ⟨d, d₁, hinit, hd₁, hstate, fun hsets => ?_⟩
  have hintime := hsets d₂ hd₂ _ (by rw [hpushes]; exact List.mem_singleton.mpr rfl) rfl hstream
  rw [hstate] at hintime
  rcases hintime with hcreated | ⟨-, hack⟩
  · cases hcreated
  · exact hack

end VSData

end Verse
