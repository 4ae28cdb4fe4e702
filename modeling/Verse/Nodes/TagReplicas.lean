import Verse.Lib.Replicas
import Verse.Nodes.QuietEvents

/-!
# What clients know of the values of tags

A client keeps what it is sent: the value of a tag is the one in the last `Tag_Set` about it.
The server sends the value at different times.  Over streams it comes with the subscription to
the tag group, over UDP when the client acknowledged that the tag was created, and from then on
whenever it is set.  Together that is enough: whatever happens at the server, what a client was
sent shows the value of every tag that it follows and that it was to know (`HoldsTag`).

## Strategy

A step is `Relayed` for a session when the records of tags stay in order and the commands that it
pushes to the session relay what the step changes.  Quiet events push no value at all.  For the
rest it is enough to see which values are pushed:

* `vs_handle_tag_set` pushes the value to the subscribers of the tag group, and the session of
  every follower is one of them (`vsHandleTagSet_relayed`);
* `vs_handle_tag_create_ack` pushes it to the followers that it makes `created`
  (`vsHandleTagCreateAck_relayed`);
* `vs_handle_taggroup_subscribe` pushes the values of all tags over a stream
  (`vsHandleTaggroupSubscribe_relayed`).
-/

namespace Verse

open Lib

namespace VSData

variable {d d' d'' : VSData} {s t a n r : ℕ}

/-! ## Notices -/

/-- What the session learns of a command that is pushed. -/
def tagNotice (s : ℕ) (p : Push) : Option (Notice ℕ (List UInt8)) :=
  match p.cmd with
  | .tagSet _ _ _ _ _ value => if p.session = s then some (p.entity, value) else none
  | _ => none

theorem tagNotice_of_noValue {p : Push} (h : NoValue p) : tagNotice s p = none := by
  unfold tagNotice
  split
  · rename_i hcmd
    rw [NoValue, hcmd] at h
    cases h
  · rfl

theorem tagNotice_eq_some {p : Push} {m : Notice ℕ (List UInt8)} :
    tagNotice s p = some m ↔ p.session = s ∧ p.cmd.isTagSet ∧
      ∃ nodeId taggroupId tagId dataType count value,
        p.cmd = .tagSet nodeId taggroupId tagId dataType count value ∧ m = (p.entity, value) := by
  unfold tagNotice
  split
  · rename_i nodeId taggroupId tagId dataType count value hcmd
    constructor
    · intro h
      split at h
      · rename_i hs
        exact ⟨hs, by rw [hcmd]; rfl, _, _, _, _, _, _, hcmd, (Option.some.inj h).symm⟩
      · cases h
    · rintro ⟨hs, -, _, _, _, _, _, value', hcmd', rfl⟩
      rw [if_pos hs]
      rw [hcmd] at hcmd'
      cases hcmd'
      rfl
  · rename_i hnot
    constructor
    · intro h
      cases h
    · rintro ⟨-, -, nodeId, taggroupId, tagId, dataType, count, value, hcmd, -⟩
      exact absurd hcmd (hnot _ _ _ _ _ _)

/-- A session is told what a step changes of the tags that it knows. -/
structure Relayed (s : ℕ) (d d' : VSData) : Prop where
  stream : (d'.session s).stream = (d.session s).stream
  records : d.TagRecords → d'.TagRecords
  relays : d.TagRecords → ∃ log, d'.pushed = d.pushed ++ log ∧
    Relays (d.HoldsTag s) (log.filterMap (tagNotice s)) (d'.HoldsTag s)

theorem Relayed.refl (s : ℕ) (d : VSData) : Relayed s d d :=
  ⟨rfl, id, fun _ => ⟨[], (List.append_nil _).symm, relays_nil fun _ _ => id⟩⟩

theorem Relayed.trans (h : Relayed s d d') (h' : Relayed s d' d'') : Relayed s d d'' where
  stream := h'.stream.trans h.stream
  records hd := h'.records (h.records hd)
  relays hd := by
    obtain ⟨log, hlog, hrelays⟩ := h.relays hd
    obtain ⟨log', hlog', hrelays'⟩ := h'.relays (h.records hd)
    refine ⟨log ++ log', by rw [hlog', hlog, List.append_assoc], ?_⟩
    rw [List.filterMap_append]
    exact hrelays.trans hrelays'

/-- A step that pushes no value of a tag and is quiet. -/
theorem Quiet.relayed (h : Quiet s d d') (hpushes : PushesOnly NoValue d d') : Relayed s d d' where
  stream := h.stream
  records := h.records
  relays hd := by
    obtain ⟨log, hlog, hnone⟩ := hpushes
    refine ⟨log, hlog, ?_⟩
    have hnil : log.filterMap (tagNotice s) = [] :=
      List.filterMap_eq_nil_iff.mpr fun p hp => tagNotice_of_noValue (hnone p hp)
    rw [hnil]
    exact relays_nil (h.holds hd)

/-! ## New followers -/

/-- A subscriber of the tag group becomes a follower of one of its tags. -/
theorem TagRecords.follow (hd : d.TagRecords) {g : ℕ} {tg : VSTagGroup} {e : VSEntity}
    {sub : VSNodeSubscriber} (htg : d.tagGroup g = some tg) (ha : a ∈ tg.tags.map Prod.snd)
    (hr : r ∈ tg.subs) (hsub : d.sub r = some sub) (he : d.entity a = some e)
    (hnew : findFollower d.subSession sub.session (fun _ => true) e.folls = some false)
    (hkept : d' = { d with
      entity := Function.update d.entity a (some (e.addFollower r)), pushed := d'.pushed }) :
    d'.TagRecords := by
  obtain ⟨tag, htag⟩ := hd.owned.exists_tag htg ha
  have hentity : d'.entity = Function.update d.entity a (some (e.addFollower r)) := by rw [hkept]
  have htags : d'.tag = d.tag := by rw [hkept]
  have hfollowers : d'.followers = d.followers := by rw [hkept]; rfl
  have hnext : d'.next = d.next := by rw [hkept]
  have hsession : sub.session ∉ d.followers e := by
    intro hmem
    obtain ⟨f, hf, hfs⟩ := mem_followers.mp hmem
    have hany := List.any_eq_false.mp (findFollower_eq hnew).symm f hf
    simp [VSEntityFollower.ofSession, hfs] at hany
  -- an entity of the new state is the tag, or an old one
  have hcases : ∀ b e', d'.entity b = some e' → (b = a ∧ e' = e.addFollower r) ∨ d.entity b = some e' := by
    intro b e' he'
    rw [hentity] at he'
    by_cases hba : b = a
    · subst hba
      rw [Function.update_self] at he'
      exact Or.inl ⟨rfl, (Option.some.inj he').symm⟩
    · rw [Function.update_of_ne hba] at he'
      exact Or.inr he'
  refine ⟨?_, ?_, fun b e' hb he' f hf => ?_, fun b e' hb he' => ?_, fun c tg' b e' f hc hb he' hf hlive => ?_⟩
  · rw [hkept]
    exact ⟨(hd.fresh.replaceEntity he _).entity, hd.fresh.node, hd.fresh.link, hd.fresh.tagGroup,
      hd.fresh.tag, hd.fresh.layer, hd.fresh.sub⟩
  · rw [hkept]
    exact hd.owned.same (.of_eq rfl rfl rfl rfl)
  · rw [hnext]
    rw [htags] at hb
    rcases hcases b e' he' with ⟨rfl, rfl⟩ | hold
    · rcases List.mem_append.mp hf with hf | hf
      · exact hd.used b e hb he f hf
      · rw [List.mem_singleton.mp hf]
        by_contra hge
        rw [hd.fresh.sub r (Nat.le_of_not_lt hge)] at hsub
        cases hsub
    · exact hd.used b e' hb hold f hf
  · rw [hfollowers]
    rw [htags] at hb
    rcases hcases b e' he' with ⟨rfl, rfl⟩ | hold
    · have hadd : d.followers (e.addFollower r) = d.followers e ++ [sub.session] := by
        simp [followers, VSEntity.addFollower, List.filterMap_append, subSession, hsub]
      rw [hadd]
      refine List.nodup_append.mpr ⟨hd.once b e hb he, by simp, fun x hx y hy => ?_⟩
      obtain rfl := List.mem_singleton.mp hy
      rintro rfl
      exact hsession hx
    · exact hd.once b e' hb hold
  · have hc' : d.tagGroup c = some tg' := by
      rw [hkept] at hc
      exact hc
    have hlive' : (d.sub f.nodeSub).isSome := by
      rw [hkept] at hlive
      exact hlive
    rcases hcases b e' he' with ⟨rfl, rfl⟩ | hold
    · rcases List.mem_append.mp hf with hf | hf
      · exact hd.attend c tg' b e f hc' hb he hf hlive'
      · -- the tag is in no other tag group
        obtain rfl : c = g := hd.owned.tags.owner (by rw [tagsOf, hc', Option.map_some])
          (by rw [tagsOf, htg, Option.map_some]) hb ha
        obtain rfl := Option.some.inj (htg.symm.trans hc')
        rw [List.mem_singleton.mp hf]
        exact hr
    · exact hd.attend c tg' b e' f hc' hb hold hf hlive'

/-- A new follower knows the value of the tag when it uses a stream. -/
theorem holdsTag_of_follow {e : VSEntity} {k : ℕ} {v : List UInt8} (he : d.entity a = some e)
    (hkept : d' = { d with
      entity := Function.update d.entity a (some (e.addFollower r)), pushed := d'.pushed })
    (hv : d'.HoldsTag s k v) : d.HoldsTag s k v ∨ (k = a ∧ d.subSession r = some s ∧
      (d.session s).stream ∧ ∃ tag, d.tag a = some tag ∧ tag.initialized ∧ tag.value = some v) := by
  obtain ⟨tag, e', f, htag, hinit, hvalue, he', hf, hsession, hstate⟩ := hv
  rw [hkept] at htag he' hsession hstate
  by_cases hka : k = a
  · subst hka
    simp only [Function.update_self, Option.some.injEq] at he'
    subst he'
    rcases List.mem_append.mp hf with hf | hf
    · exact Or.inl ⟨tag, e, f, htag, hinit, hvalue, he, hf, hsession, hstate⟩
    · obtain rfl := List.mem_singleton.mp hf
      refine Or.inr ⟨rfl, hsession, hstate.resolve_left fun hne => hne rfl, tag, htag, hinit, hvalue⟩
  · simp only [Function.update_of_ne hka] at he'
    exact Or.inl ⟨tag, e', f, htag, hinit, hvalue, he', hf, hsession, hstate⟩

section NewFollowers

variable {g : ℕ} {tg tg' : VSTagGroup} {node : VSNode}

/-- What `vs_tag_send_create` leaves of everything but the entities. -/
theorem vsTagSendCreate_kept (h : d.vsTagSendCreate r n node tg' a = some d') :
    d' = { d with entity := d'.entity, pushed := d'.pushed } := by
  obtain ⟨tag, -, h⟩ := Option.bind_eq_some_iff.mp h
  rcases sendCreate_cases h with rfl | ⟨sub, e, c, -, -, -, -, -, rfl⟩ <;> rfl

theorem vsTagSendCreate_records (hd : d.TagRecords) (htg : d.tagGroup g = some tg)
    (ha : a ∈ tg.tags.map Prod.snd) (hr : r ∈ tg.subs)
    (h : d.vsTagSendCreate r n node tg' a = some d') : d'.TagRecords := by
  obtain ⟨tag, -, h⟩ := Option.bind_eq_some_iff.mp h
  rcases sendCreate_cases h with rfl | ⟨sub, e, c, hsub, he, -, hnew, -, rfl⟩
  · exact hd
  · exact hd.follow htg ha hr hsub he hnew rfl

theorem vsTagSendCreate_holds {k : ℕ} {v : List UInt8}
    (h : d.vsTagSendCreate r n node tg' a = some d') (hv : d'.HoldsTag s k v) :
    d.HoldsTag s k v ∨ (k = a ∧ d.subSession r = some s ∧ (d.session s).stream ∧
      ∃ tag, d.tag a = some tag ∧ tag.initialized ∧ tag.value = some v) := by
  obtain ⟨tag, -, h⟩ := Option.bind_eq_some_iff.mp h
  rcases sendCreate_cases h with rfl | ⟨sub, e, c, -, he, -, -, -, rfl⟩
  · exact Or.inl hv
  · exact holdsTag_of_follow he rfl hv

/-- A tag without a value. -/
theorem vsTagSendCreate_quiet (htg : d.tagGroup g = some tg) (ha : a ∈ tg.tags.map Prod.snd)
    (hr : r ∈ tg.subs) (hnew : ∀ tag, d.tag a = some tag → tag.initialized = false)
    (h : d.vsTagSendCreate r n node tg' a = some d') : Quiet s d d' where
  stream := by rw [vsTagSendCreate_kept h]
  records hd := vsTagSendCreate_records hd htg ha hr h
  holds _ k v hv := by
    rcases vsTagSendCreate_holds h hv with hold | ⟨-, -, -, tag, htag, hinit, -⟩
    · exact hold
    · rw [hnew tag htag] at hinit
      cases hinit

end NewFollowers

theorem vsHandleTagCreate_quiet {nodeId taggroupId tagId dataType count type : ℕ}
    (h : d.vsHandleTagCreate t nodeId taggroupId tagId dataType count type = some d') :
    Quiet s d d' := by
  rcases withNode_cases h with rfl | ⟨n, node, -, -, h⟩
  · exact Quiet.refl s _
  rcases ite_cases h with rfl | ⟨-, h⟩
  · exact Quiet.refl s _
  rcases withTagGroup_cases h with rfl | ⟨g, tg, -, htg, h⟩
  · exact Quiet.refl s _
  rcases ite_cases h with rfl | ⟨-, h⟩
  · exact Quiet.refl s _
  obtain ⟨⟨d₁, a⟩, hcreate, h⟩ := Option.bind_eq_some_iff.mp h
  have hcreated : Effect .create d d₁ := Effect.newTag hcreate
  have hnew : Quiet s d d₁ := hcreated.quiet_of_kind (by simp [loudKinds])
  refine hnew.trans ((setState_quiet d₁ a .creating).trans ?_)
  have htag : ∃ tag, d₁.tag a = some tag ∧ tag.initialized = false := by
    simp only [vsTagCreate, Option.bind_eq_bind, Option.bind_eq_some_iff] at hcreate
    obtain ⟨tg₁, -, id, -, hcreate⟩ := hcreate
    obtain ⟨rfl, rfl⟩ := Prod.mk.inj (Option.some.inj hcreate)
    exact ⟨_, Function.update_self _ _ _, rfl⟩
  have hgroup : ∃ tg₁, d₁.tagGroup g = some tg₁ ∧ a ∈ tg₁.tags.map Prod.snd ∧ tg₁.subs = tg.subs := by
    obtain ⟨tg₁, id, tag, htg₁, -, rfl, rfl⟩ := vsTagCreate_eq hcreate
    obtain rfl := Option.some.inj (htg.symm.trans htg₁)
    exact ⟨_, Function.update_self _ _ _, by simp, rfl⟩
  obtain ⟨tag, htag, hinit⟩ := htag
  obtain ⟨tg₁, htg₁, ha, hsubs⟩ := hgroup
  have hloop := foldlM_rel
    (R := fun t t' : VSData => Quiet s t t' ∧ t'.tag = t.tag ∧ t'.tagGroup = t.tagGroup)
    (fun t => ⟨Quiet.refl s t, rfl, rfl⟩)
    (fun h₁ h₂ => ⟨h₁.1.trans h₂.1, h₂.2.1.trans h₁.2.1, h₂.2.2.trans h₁.2.2⟩)
    (fun t x t' hx ht hbody => ?_) h
  · exact hloop.1
  obtain ⟨-, htags, hgroups⟩ := ht
  have htg' : t.tagGroup g = some tg₁ := by
    rw [hgroups]
    exact htg₁
  have hkept := vsTagSendCreate_kept hbody
  refine ⟨vsTagSendCreate_quiet htg' ha (by rw [hsubs]; exact hx) (fun tag' htag' => ?_) hbody,
    by rw [hkept], by rw [hkept]⟩
  rw [htags] at htag'
  obtain rfl := Option.some.inj (htag.symm.trans htag')
  exact hinit

/-! ## Subscribing to a tag group -/

section Subscribing

variable {g nodeId taggroupId : ℕ} {tg tg' : VSTagGroup} {node : VSNode}

/-- One round of the loop: a tag is sent, and its value over a stream. -/
theorem tagRound_relayed (htg : d.tagGroup g = some tg) (ha : a ∈ tg.tags.map Prod.snd)
    (hr : r ∈ tg.subs) (hsession : d.subSession r = some t)
    (h : ((d.vsTagSendCreate r n node tg' a).bind fun d => (d.tag a).bind fun tag =>
      if (d.session t).stream ∧ tag.initialized then d.push r (tagSetCmd node tg' tag) a n
      else pure d) = some d') : Relayed s d d' := by
  obtain ⟨d₁, hd₁, h⟩ := Option.bind_eq_some_iff.mp h
  obtain ⟨tag, htag₁, h⟩ := Option.bind_eq_some_iff.mp h
  have hkept := vsTagSendCreate_kept hd₁
  have htag : d.tag a = some tag := by
    rw [hkept] at htag₁
    exact htag₁
  have hrecords : d.TagRecords → d₁.TagRecords := fun hd => vsTagSendCreate_records hd htg ha hr hd₁
  obtain ⟨log, hlog, hnone⟩ := (vsTagSendCreate_noValue hd₁).1
  have hnotices : log.filterMap (tagNotice s) = [] :=
    List.filterMap_eq_nil_iff.mpr fun p hp => tagNotice_of_noValue (hnone p hp)
  split at h
  · -- the value is pushed behind the command that creates the tag
    rename_i hvalue
    have hquiet : Quiet s d₁ d' := push_quiet h
    obtain ⟨sub, hsub, rfl⟩ := push_eq_some.mp h
    have hsub₀ : d.sub r = some sub := by
      rw [hkept] at hsub
      exact hsub
    obtain rfl : sub.session = t := by
      rw [subSession_of_sub hsub₀] at hsession
      exact Option.some.inj hsession
    refine ⟨by rw [hkept], fun hd => hquiet.records (hrecords hd), fun hd =>
      ⟨log ++ [⟨sub.session, sub.prio, tagSetCmd node tg' tag, a, n⟩], ?_, ?_⟩⟩
    · rw [← List.append_assoc, ← hlog]
    rw [List.filterMap_append, hnotices, List.nil_append]
    have hnotice : ∀ m ∈ [(⟨sub.session, sub.prio, tagSetCmd node tg' tag, a, n⟩ : Push)].filterMap
        (tagNotice s), sub.session = s ∧ m = (a, tag.value) := by
      intro m hm
      obtain ⟨p, hp, hm⟩ := List.mem_filterMap.mp hm
      obtain rfl := List.mem_singleton.mp hp
      obtain ⟨hs, -, _, _, _, _, _, value, hcmd, rfl⟩ := tagNotice_eq_some.mp hm
      cases hcmd
      exact ⟨hs, rfl⟩
    refine relays_of_each (fun k v hv m hm hk => ?_) fun k v hv => ?_
    · obtain ⟨-, rfl⟩ := hnotice m hm
      obtain ⟨tag', -, -, htag', -, hvalue', -⟩ := hquiet.holds (hrecords hd) k v hv
      obtain rfl : a = k := hk
      obtain rfl := Option.some.inj (htag₁.symm.trans htag')
      exact hvalue'
    · rcases vsTagSendCreate_holds hd₁ (hquiet.holds (hrecords hd) k v hv) with
        hold | ⟨rfl, hs, -, -⟩
      · exact Or.inr hold
      · refine Or.inl ⟨(k, tag.value), List.mem_filterMap.mpr
          ⟨_, List.mem_singleton.mpr rfl, tagNotice_eq_some.mpr ⟨?_, rfl, _, _, _, _, _, _, rfl, rfl⟩⟩, rfl⟩
        exact Option.some.inj (hsession.symm.trans hs)
  · rename_i hnovalue
    obtain rfl := Option.some.inj h
    refine ⟨by rw [hkept], hrecords, fun hd => ⟨log, hlog, ?_⟩⟩
    rw [hnotices]
    refine relays_nil fun k v hv => ?_
    rcases vsTagSendCreate_holds hd₁ hv with hold | ⟨rfl, hs, hstream, tag', htag', hinit, -⟩
    · exact hold
    · -- over a stream, the value of an initialized tag is pushed
      obtain rfl := Option.some.inj (hsession.symm.trans hs)
      obtain rfl := Option.some.inj (htag.symm.trans htag')
      rw [hkept] at hnovalue
      exact absurd ⟨hstream, hinit⟩ hnovalue

theorem vsHandleTaggroupSubscribe_relayed
    (h : d.vsHandleTaggroupSubscribe t nodeId taggroupId = some d') : Relayed s d d' := by
  rcases withNode_cases h with rfl | ⟨n, node, -, hnode, h⟩
  · exact Relayed.refl s _
  rcases ite_cases h with rfl | ⟨-, h⟩
  · exact Relayed.refl s _
  obtain ⟨subscribed, hsubscribed, h⟩ := Option.bind_eq_some_iff.mp h
  cases subscribed with
  | none =>
      obtain rfl := Option.some.inj h
      exact Relayed.refl s _
  | some r =>
      obtain ⟨hr, hsession⟩ := findSub_some hsubscribed
      rcases withTagGroup_cases h with rfl | ⟨g, tg, hg, htg, h⟩
      · exact Relayed.refl s _
      obtain ⟨found, -, h⟩ := Option.bind_eq_some_iff.mp h
      split at h
      · obtain rfl := Option.some.inj h
        exact Relayed.refl s _
      have hjoin : Effect .join d (d.setTagGroup g (some { tg with subs := tg.subs ++ [r] })) :=
        Effect.joinTagGroup hnode (HashTable.findItem_mem hg) htg hr
      have hjoined : Quiet s d (d.setTagGroup g (some { tg with subs := tg.subs ++ [r] })) :=
        hjoin.quiet_of_kind (by simp [loudKinds])
      refine (hjoined.relayed (PushesOnly.of_eq rfl)).trans ?_
      have hloop := foldlM_rel
        (R := fun e e' : VSData => Relayed s e e' ∧ e'.tagGroup = e.tagGroup ∧ e'.sub = e.sub)
        (fun e => ⟨Relayed.refl s e, rfl, rfl⟩)
        (fun h₁ h₂ => ⟨h₁.1.trans h₂.1, h₂.2.1.trans h₁.2.1, h₂.2.2.trans h₁.2.2⟩)
        (fun e b e' hb he hbody => ?_) h
      · exact hloop.1
      obtain ⟨-, hgroups, hsubs⟩ := he
      have htg' : e.tagGroup g = some { tg with subs := tg.subs ++ [r] } := by
        rw [hgroups]
        exact Function.update_self _ _ _
      have hsession' : e.subSession r = some t := by
        rw [subSession, hsubs]
        exact hsession
      refine ⟨tagRound_relayed htg' (List.mem_map_of_mem hb) (by simp) hsession' hbody, ?_⟩
      obtain ⟨e₁, he₁, hbody⟩ := Option.bind_eq_some_iff.mp hbody
      obtain ⟨tag, -, hbody⟩ := Option.bind_eq_some_iff.mp hbody
      have hkept := vsTagSendCreate_kept he₁
      split at hbody
      · obtain ⟨sub, -, rfl⟩ := push_eq_some.mp hbody
        rw [hkept]
        exact ⟨rfl, rfl⟩
      · obtain rfl := Option.some.inj hbody
        rw [hkept]
        exact ⟨rfl, rfl⟩

end Subscribing

/-! ## Setting a tag -/

theorem TagRecords.setTag (hd : d.TagRecords) {tag : VSTag} {value : List UInt8}
    (htag : d.tag a = some tag) : (d.setTag a (some (setTagValue tag value))).TagRecords := by
  have hsome : ∀ {b}, ((d.setTag a (some (setTagValue tag value))).tag b).isSome → (d.tag b).isSome := by
    intro b hb
    rwa [show (d.setTag a (some (setTagValue tag value))).tag =
      Function.update d.tag a (some (setTagValue tag value)) from rfl, isSome_update_of_some htag] at hb
  exact ⟨hd.fresh.setTag (by simp [htag]), hd.owned.same (sameContent_setTag htag rfl),
    fun b e hb => hd.used b e (hsome hb), fun b e hb => hd.once b e (hsome hb), hd.attend⟩

theorem vsHandleTagSet_relayed {nodeId taggroupId tagId dataType count : ℕ} {value : List UInt8}
    (h : d.vsHandleTagSet t nodeId taggroupId tagId dataType count value = some d') : Relayed s d d' := by
  rcases withNode_cases h with rfl | ⟨n, node, -, -, h⟩
  · exact Relayed.refl s _
  rcases ite_cases h with rfl | ⟨-, h⟩
  · exact Relayed.refl s _
  rcases withTagGroup_cases h with rfl | ⟨g, tg, -, htg, h⟩
  · exact Relayed.refl s _
  rcases withTag_cases h with rfl | ⟨a, tag, ha, htag, h⟩
  · exact Relayed.refl s _
  rcases ite_cases h with rfl | ⟨-, h⟩
  · exact Relayed.refl s _
  have hpushes : Quiet s (d.setTag a (some (setTagValue tag value))) d' :=
    foldlM_rel (Quiet.refl s) Quiet.trans (fun _ _ _ _ _ hbody => push_quiet hbody) h
  have hd' := foldlM_push_pushed h
  have hnotice : ∀ m ∈ (tg.subs.filterMap fun r => (d.sub r).map fun sub => (⟨sub.session, sub.prio,
      tagSetCmd node tg (setTagValue tag value), a, n⟩ : Push)).filterMap (tagNotice s),
      m = (a, some value) := by
    intro m hm
    obtain ⟨p, hp, hm⟩ := List.mem_filterMap.mp hm
    obtain ⟨r, -, hp⟩ := List.mem_filterMap.mp hp
    obtain ⟨sub, -, rfl⟩ := Option.map_eq_some_iff.mp hp
    obtain ⟨-, -, _, _, _, _, _, value', hcmd, rfl⟩ := tagNotice_eq_some.mp hm
    cases hcmd
    rfl
  refine ⟨hpushes.stream, fun hd => hpushes.records (hd.setTag htag), fun hd => ⟨_, by rw [hd']; rfl, ?_⟩⟩
  refine relays_of_each (fun k v hv m hm hk => ?_) fun k v hv => ?_
  · obtain rfl := hnotice m hm
    obtain ⟨tag', -, -, htag', -, hvalue', -⟩ := hpushes.holds (hd.setTag htag) k v hv
    obtain rfl : a = k := hk
    have hnew : (d.setTag a (some (setTagValue tag value))).tag a = some (setTagValue tag value) :=
      Function.update_self _ _ _
    obtain rfl := Option.some.inj (hnew.symm.trans htag')
    exact hvalue'
  · obtain ⟨tag', e, f, htag', hinit, hvalue', he, hf, hsession, hstate⟩ :=
      hpushes.holds (hd.setTag htag) k v hv
    by_cases hka : k = a
    · -- the follower is a subscriber of the tag group
      subst hka
      obtain ⟨sub, hsub, hs⟩ := Option.map_eq_some_iff.mp hsession
      have hmem : f.nodeSub ∈ tg.subs :=
        hd.attend g tg k e f htg (HashTable.findItem_mem ha) he hf (by
          have hsub' : d.sub f.nodeSub = some sub := hsub
          rw [hsub']
          rfl)
      refine Or.inl ⟨(k, some value), List.mem_filterMap.mpr
        ⟨⟨sub.session, sub.prio, tagSetCmd node tg (setTagValue tag value), k, n⟩, ?_, ?_⟩, rfl⟩
      · refine List.mem_filterMap.mpr ⟨f.nodeSub, hmem, ?_⟩
        rw [hsub]
        rfl
      · exact tagNotice_eq_some.mpr ⟨hs, rfl, _, _, _, _, _, _, rfl, rfl⟩
    · refine Or.inr ⟨tag', e, f, ?_, hinit, hvalue', he, hf, hsession, hstate⟩
      exact (Function.update_of_ne hka _ _).symm.trans htag'

/-! ## Acknowledging that a tag was created -/

/-- The same subscribers follow an entity. -/
theorem TagRecords.sameSubs (hd : d.TagRecords) {e e' : VSEntity} (he : d.entity a = some e)
    (hsubs : e'.folls.map VSEntityFollower.nodeSub = e.folls.map VSEntityFollower.nodeSub)
    (hkept : d' = { d with
      entity := Function.update d.entity a (some e'), pushed := d'.pushed }) : d'.TagRecords := by
  have hfollowers : ∀ e₁, d'.followers e₁ = d.followers e₁ := by
    intro e₁
    rw [hkept]
    rfl
  -- what an entity of the new state has of followers, one of the old state has
  have hcases : ∀ b e₁, d'.entity b = some e₁ → ∃ e₀, d.entity b = some e₀ ∧
      e₁.folls.map VSEntityFollower.nodeSub = e₀.folls.map VSEntityFollower.nodeSub := by
    intro b e₁ he₁
    rw [hkept] at he₁
    by_cases hba : b = a
    · subst hba
      simp only [Function.update_self, Option.some.injEq] at he₁
      subst he₁
      exact ⟨e, he, hsubs⟩
    · simp only [Function.update_of_ne hba] at he₁
      exact ⟨e₁, he₁, rfl⟩
  have hfoll : ∀ {e₁ e₀ : VSEntity}, e₁.folls.map VSEntityFollower.nodeSub =
      e₀.folls.map VSEntityFollower.nodeSub → ∀ f ∈ e₁.folls, ∃ f₀ ∈ e₀.folls, f₀.nodeSub = f.nodeSub := by
    intro e₁ e₀ hsame f hf
    have hmem : f.nodeSub ∈ e₁.folls.map VSEntityFollower.nodeSub := List.mem_map_of_mem hf
    rw [hsame] at hmem
    exact List.mem_map.mp hmem
  refine ⟨?_, ?_, fun b e₁ hb he₁ f hf => ?_, fun b e₁ hb he₁ => ?_, fun g tg b e₁ f hg hb he₁ hf hlive => ?_⟩
  · rw [hkept]
    exact ⟨(hd.fresh.replaceEntity he e').entity, hd.fresh.node, hd.fresh.link, hd.fresh.tagGroup,
      hd.fresh.tag, hd.fresh.layer, hd.fresh.sub⟩
  · rw [hkept]
    exact hd.owned.same (.of_eq rfl rfl rfl rfl)
  · obtain ⟨e₀, he₀, hsame⟩ := hcases b e₁ he₁
    obtain ⟨f₀, hf₀, heq⟩ := hfoll hsame f hf
    rw [hkept] at hb ⊢
    rw [← heq]
    exact hd.used b e₀ hb he₀ f₀ hf₀
  · obtain ⟨e₀, he₀, hsame⟩ := hcases b e₁ he₁
    rw [hkept] at hb
    rw [hfollowers, followers_eq_filterMap, hsame, ← followers_eq_filterMap]
    exact hd.once b e₀ hb he₀
  · obtain ⟨e₀, he₀, hsame⟩ := hcases b e₁ he₁
    obtain ⟨f₀, hf₀, heq⟩ := hfoll hsame f hf
    rw [hkept] at hg hlive
    rw [← heq] at hlive ⊢
    exact hd.attend g tg b e₀ f₀ hg hb he₀ hf₀ hlive

theorem Effect.pushesMore {k : EffectKind} (he : Effect k d d') : PushesOnly (fun _ => True) d d' := by
  by_cases hk : k = .pushSet
  · subst hk
    cases he with
    | pushSet hpush _ _ => exact push_pushesOnly hpush fun _ _ => trivial
  · exact (he.noValue hk).mono fun _ _ => trivial

theorem Effects.pushed_eq {S : Set EffectKind} (h : Effects S d d') :
    d'.pushed = d.pushed ++ newPushes d d' := by
  obtain ⟨log, hlog, -⟩ := h.rel PushesOnly.refl PushesOnly.trans fun _ _ _ _ he => he.pushesMore
  rw [newPushes_of_append hlog, hlog]

/-- A follower of the session that heard of the entity only now was being created. -/
theorem hears_of_createAck {e e' : VSEntity} (hack : e.createAck d.subSession t .tag = some e')
    {f' : VSEntityFollower} (hf' : f' ∈ e'.folls) (hears : d.Hears s f') :
    ∃ f ∈ e.folls, f.nodeSub = f'.nodeSub ∧
      (d.Hears s f ∨ (f.ofSession d.subSession t ∧ s = t ∧ f.state ≠ .created)) := by
  rw [createAck_eq hack] at hf'
  obtain ⟨f, hf, rfl⟩ := List.mem_map.mp hf'
  by_cases hown : f.ofSession d.subSession t
  · rw [if_pos hown] at hears ⊢
    have hsession : d.subSession f.nodeSub = some s := hears.1
    have hst : s = t := by
      simp only [VSEntityFollower.ofSession, beq_iff_eq] at hown
      exact Option.some.inj (hsession.symm.trans hown)
    refine ⟨f, hf, rfl, ?_⟩
    by_cases hstate : f.state = .created
    · exact Or.inl ⟨hsession, Or.inl (by rw [hstate]; decide)⟩
    · exact Or.inr ⟨hown, hst, hstate⟩
  · rw [if_neg hown] at hears ⊢
    exact ⟨f, hf, rfl, Or.inl hears⟩

theorem vsHandleTagCreateAck_relayed {nodeId taggroupId tagId : ℕ}
    (h : d.vsHandleTagCreateAck t nodeId taggroupId tagId = some d') : Relayed s d d' := by
  rcases vsHandleTagCreateAck_acked h with rfl | ⟨n, node, g, tg, a, hn, hnode, hg, htg, ha, hack⟩
  · exact Relayed.refl s _
  obtain ⟨e, e', he, hcreate, hkept⟩ := hack.eq
  have hpushed : d'.pushed = d.pushed ++ newPushes d d' := hack.effects.pushed_eq
  -- the values that are pushed
  obtain ⟨node', hnode', h⟩ := withNode_of_find hn h
  obtain rfl := Option.some.inj (hnode.symm.trans hnode')
  obtain ⟨tg', htg', h⟩ := withTagGroup_of_find hg h
  obtain rfl := Option.some.inj (htg.symm.trans htg')
  obtain ⟨tag, htag, h⟩ := withTag_of_find ha h
  obtain ⟨e₁, he₁, honly, hpush⟩ := createAck_values rfl h
  obtain rfl := Option.some.inj (he.symm.trans he₁)
  have htags : d'.tag = d.tag := by rw [hkept]
  have hsubs : e'.folls.map VSEntityFollower.nodeSub = e.folls.map VSEntityFollower.nodeSub := by
    rw [createAck_eq hcreate, List.map_map]
    refine List.map_congr_left fun f _ => ?_
    simp only [Function.comp]
    split <;> rfl
  refine ⟨by rw [hkept], fun hd => hd.sameSubs he hsubs hkept, fun _ => ⟨newPushes d d', hpushed, ?_⟩⟩
  refine relays_of_each (fun k v hv m hm hk => ?_) fun k v hv => ?_
  · obtain ⟨p, hp, hm⟩ := List.mem_filterMap.mp hm
    obtain ⟨-, hset, _, _, _, _, _, value, hcmd, rfl⟩ := tagNotice_eq_some.mp hm
    obtain ⟨⟨-, hentity, hsent⟩, -⟩ := honly p hp hset
    obtain rfl : a = k := hentity.symm.trans hk
    obtain ⟨tag', -, -, htag', -, hvalue, -⟩ := hv
    rw [htags] at htag'
    obtain rfl := Option.some.inj (htag.symm.trans htag')
    split at hsent
    · rw [Option.some.inj hsent] at hcmd
      cases hcmd
      exact hvalue
    · cases hsent
  · obtain ⟨tag', e₂, f', htag', hinit, hvalue, he₂, hf', hears⟩ := hv
    have hears' : d.Hears s f' := by
      rw [hkept] at hears
      exact hears
    rw [htags] at htag'
    rw [hkept] at he₂
    by_cases hka : k = a
    · subst hka
      obtain rfl := Option.some.inj (htag.symm.trans htag')
      simp only [Function.update_self, Option.some.injEq] at he₂
      subst he₂
      obtain ⟨f, hf, -, hknown | ⟨hown, rfl, hstate⟩⟩ := hears_of_createAck hcreate hf' hears'
      · exact Or.inr ⟨tag, e, f, htag, hinit, hvalue, he, hf, hknown⟩
      · -- the session is sent the value just now
        obtain ⟨p, hp, hs, hentity, hsent⟩ := hpush f hf hown hstate (by rw [if_pos hinit]; rfl)
        rw [if_pos hinit] at hsent
        refine Or.inl ⟨(p.entity, tag.value), List.mem_filterMap.mpr ⟨p, hp, ?_⟩, hentity⟩
        exact tagNotice_eq_some.mpr ⟨hs, by rw [Option.some.inj hsent]; rfl, _, _, _, _, _, _,
          Option.some.inj hsent, rfl⟩
    · simp only [Function.update_of_ne hka] at he₂
      exact Or.inr ⟨tag', e₂, f', htag', hinit, hvalue, he₂, hf', hears'⟩

/-! ## What the commands say -/

/-- The command is about the tag: it has the ids of the tag, of its tag group and of the node,
and what is stored of the tag. -/
def Describes (d : VSData) (p : Push) : Prop :=
  ∃ n node g tg tag, d.node n = some node ∧ (tg.id, g) ∈ node.tagGroups ∧ d.tagGroup g = some tg ∧
    (tag.id, p.entity) ∈ tg.tags ∧ d.tag p.entity = some tag ∧ p.cmd = tagSetCmd node tg tag

theorem Describes.congr {p : Push} (h : d.Describes p) (hnode : d'.node = d.node)
    (htg : d'.tagGroup = d.tagGroup) (htag : d'.tag = d.tag) : d'.Describes p := by
  unfold Describes
  rw [hnode, htg, htag]
  exact h

/-- The values of tags that are pushed are those of the tags. -/
def PushesTags (d d' : VSData) : Prop := PushesOnly (fun p => p.cmd.isTagSet → d'.Describes p) d d'

theorem PushesOnly.pushesTags (h : PushesOnly NoValue d d') : PushesTags d d' := by
  refine h.mono fun p hp hset => ?_
  rw [hp] at hset
  cases hset

section

variable {node : VSNode} {g : ℕ} {tg : VSTagGroup} {tag : VSTag}

theorem ContentOwned.mem_tagGroups (hd : d.ContentOwned) (hnode : d.node n = some node)
    (hg : g ∈ node.tagGroups.map Prod.snd) (htg : d.tagGroup g = some tg) : (tg.id, g) ∈ node.tagGroups :=
  hd.tagGroups.mem_of_key (by rw [tagGroupsOf, hnode, Option.map_some]) hg
    (by rw [tagGroupId, htg, Option.map_some])

theorem ContentOwned.mem_tags (hd : d.ContentOwned) (htg : d.tagGroup g = some tg)
    (ha : a ∈ tg.tags.map Prod.snd) (htag : d.tag a = some tag) : (tag.id, a) ∈ tg.tags :=
  hd.tags.mem_of_key (by rw [tagsOf, htg, Option.map_some]) ha (by rw [tagId, htag, Option.map_some])

end

theorem vsHandleTagSet_describes {nodeId taggroupId tagId dataType count : ℕ} {value : List UInt8}
    (hd : d.ContentOwned)
    (h : d.vsHandleTagSet t nodeId taggroupId tagId dataType count value = some d') :
    PushesTags d d' := by
  rcases withNode_cases h with rfl | ⟨n, node, -, hnode, h⟩
  · exact PushesOnly.refl _
  rcases ite_cases h with rfl | ⟨-, h⟩
  · exact PushesOnly.refl _
  rcases withTagGroup_cases h with rfl | ⟨g, tg, hg, htg, h⟩
  · exact PushesOnly.refl _
  rcases withTag_cases h with rfl | ⟨a, tag, ha, htag, h⟩
  · exact PushesOnly.refl _
  rcases ite_cases h with rfl | ⟨-, h⟩
  · exact PushesOnly.refl _
  rw [foldlM_push_pushed h]
  refine ⟨_, rfl, fun p hp _ => ?_⟩
  obtain ⟨r, -, hp⟩ := List.mem_filterMap.mp hp
  obtain ⟨sub, -, rfl⟩ := Option.map_eq_some_iff.mp hp
  have hid : (setTagValue tag value).id = tag.id := rfl
  refine ⟨n, node, g, tg, setTagValue tag value, hnode, hd.mem_tagGroups hnode (HashTable.findItem_mem hg) htg,
    htg, ?_, Function.update_self _ _ _, rfl⟩
  rw [hid]
  exact hd.mem_tags htg (HashTable.findItem_mem ha) htag

theorem vsHandleTagCreateAck_describes {nodeId taggroupId tagId : ℕ} (hd : d.ContentOwned)
    (h : d.vsHandleTagCreateAck t nodeId taggroupId tagId = some d') : PushesTags d d' := by
  rcases vsHandleTagCreateAck_acked h with rfl | ⟨n, node, g, tg, a, hn, hnode, hg, htg, ha, hack⟩
  · exact PushesOnly.refl _
  obtain ⟨e, e', he, -, hkept⟩ := hack.eq
  obtain ⟨node', hnode', h⟩ := withNode_of_find hn h
  obtain rfl := Option.some.inj (hnode.symm.trans hnode')
  obtain ⟨tg', htg', h⟩ := withTagGroup_of_find hg h
  obtain rfl := Option.some.inj (htg.symm.trans htg')
  obtain ⟨tag, htag, h⟩ := withTag_of_find ha h
  obtain ⟨e₁, -, honly, -⟩ := createAck_values rfl h
  refine ⟨newPushes d d', hack.effects.pushed_eq, fun p hp hset => ?_⟩
  obtain ⟨⟨-, rfl, hsent⟩, -⟩ := honly p hp hset
  split at hsent
  · have hdescribes : d.Describes p :=
      ⟨n, node, g, tg, tag, hnode, hd.mem_tagGroups hnode (HashTable.findItem_mem hg) htg, htg,
        hd.mem_tags htg (HashTable.findItem_mem ha) htag, htag, Option.some.inj hsent⟩
    exact hdescribes.congr (by rw [hkept]) (by rw [hkept]) (by rw [hkept])
  · cases hsent

theorem vsHandleTaggroupSubscribe_describes {nodeId taggroupId : ℕ} (hd : d.ContentOwned)
    (h : d.vsHandleTaggroupSubscribe t nodeId taggroupId = some d') : PushesTags d d' := by
  rcases withNode_cases h with rfl | ⟨n, node, -, hnode, h⟩
  · exact PushesOnly.refl _
  rcases ite_cases h with rfl | ⟨-, h⟩
  · exact PushesOnly.refl _
  obtain ⟨subscribed, -, h⟩ := Option.bind_eq_some_iff.mp h
  cases subscribed with
  | none =>
      obtain rfl := Option.some.inj h
      exact PushesOnly.refl _
  | some r =>
      rcases withTagGroup_cases h with rfl | ⟨g, tg, hg, htg, h⟩
      · exact PushesOnly.refl _
      obtain ⟨found, -, h⟩ := Option.bind_eq_some_iff.mp h
      split at h
      · obtain rfl := Option.some.inj h
        exact PushesOnly.refl _
      -- nodes, tag groups and tags are the same in every round
      have hloop := foldlM_rel
        (R := fun e e' : VSData => PushesOnly (fun p => p.cmd.isTagSet → (d.setTagGroup g
            (some { tg with subs := tg.subs ++ [r] })).Describes p) e e' ∧
          e'.node = e.node ∧ e'.tagGroup = e.tagGroup ∧ e'.tag = e.tag)
        (fun e => ⟨PushesOnly.refl e, rfl, rfl, rfl⟩)
        (fun h₁ h₂ => ⟨h₁.1.trans h₂.1, h₂.2.1.trans h₁.2.1, h₂.2.2.1.trans h₁.2.2.1,
          h₂.2.2.2.trans h₁.2.2.2⟩)
        (fun e b e' hb he hbody => ?_) h
      · obtain ⟨hpushes, hnodes, hgroups, htags⟩ := hloop
        exact ((PushesOnly.of_eq rfl).trans hpushes).mono fun p hp hset =>
          (hp hset).congr hnodes hgroups htags
      obtain ⟨-, -, -, htags⟩ := he
      obtain ⟨e₁, he₁, hbody⟩ := Option.bind_eq_some_iff.mp hbody
      obtain ⟨tag, htag, hbody⟩ := Option.bind_eq_some_iff.mp hbody
      have hkept := vsTagSendCreate_kept he₁
      have htag₀ : d.tag b.2 = some tag := by
        rw [hkept] at htag
        exact (congrFun htags b.2).symm.trans htag
      have hsent : PushesOnly (fun p => p.cmd.isTagSet → (d.setTagGroup g
          (some { tg with subs := tg.subs ++ [r] })).Describes p) e e₁ := by
        refine (vsTagSendCreate_noValue he₁).1.mono fun p hp hset => ?_
        rw [hp] at hset
        cases hset
      split at hbody
      · refine ⟨hsent.trans (push_pushesOnly hbody fun sub _ _ => ?_), ?_⟩
        · have hgroup : (tg.id, g) ∈ node.tagGroups :=
            hd.mem_tagGroups hnode (HashTable.findItem_mem hg) htg
          have htag' : (tag.id, b.2) ∈ tg.tags := hd.mem_tags htg (List.mem_map_of_mem hb) htag₀
          exact ⟨n, node, g, { tg with subs := tg.subs ++ [r] }, tag, hnode, hgroup,
            Function.update_self _ _ _, htag', htag₀, rfl⟩
        · obtain ⟨sub, -, rfl⟩ := push_eq_some.mp hbody
          rw [hkept]
          exact ⟨rfl, rfl, rfl⟩
      · obtain rfl := Option.some.inj hbody
        refine ⟨hsent, ?_⟩
        rw [hkept]
        exact ⟨rfl, rfl, rfl⟩

/-! ## Runs -/

/-- **One step.** -/
theorem step_relayed {event : NodeEvent} (hfresh : d.Fresh) (hlogin : ¬ event.LogsIn s)
    (hstep : d.step event = some d') : Relayed s d d' := by
  have hvalues : .pushSet ∉ event.kinds → PushesOnly NoValue d d' :=
    fun hkinds => (step_effects hfresh hstep).noValue hkinds
  have hquiet : ¬ event.OfTags → Quiet s d d' := fun hevent => step_quiet hfresh hlogin hevent hstep
  cases event with
  | login => exact (hquiet id).relayed (hvalues (by simp [NodeEvent.kinds, builds]))
  | disconnect => exact (hquiet id).relayed (hvalues (by simp [NodeEvent.kinds, departs]))
  | command t cmd =>
      rcases ite_cases hstep with rfl | ⟨-, h⟩
      · exact Relayed.refl s _
      cases cmd with
      | tagSet => exact vsHandleTagSet_relayed h
      | tagCreate =>
          exact (vsHandleTagCreate_quiet h).relayed (hvalues (by simp [NodeEvent.kinds, NodeCmd.kinds]))
      | tagCreateAck => exact vsHandleTagCreateAck_relayed h
      | taggroupSubscribe => exact vsHandleTaggroupSubscribe_relayed h
      | _ => exact (hquiet id).relayed (hvalues (by simp [NodeEvent.kinds, NodeCmd.kinds, leaves]))

/-- Nobody is subscribed to the nodes the server starts with. -/
theorem vsNodesInit_tagRecords {users : List VSUser} {superUser otherUsers : ℕ}
    {realname : ℕ → List UInt8} (h : vsNodesInit users superUser otherUsers realname = some d) :
    d.TagRecords := by
  obtain ⟨hfresh, hlife⟩ := vsNodesInit_life h
  have hnone := (vsNodesInit_invariant (fun d => ∀ r, d.sub r = none) (fun _ => rfl)
    (fun _ _ hd => hd) (fun k d d' hk _ he hd r => by
      rw [he.sub_kept, hd]
      all_goals rcases hk with rfl | rfl | rfl | rfl | rfl <;> simp) h).2
  refine ⟨hfresh, (vsNodesInit_contentOwned h).2, fun a e _ => hlife.used a e, fun a e _ => hlife.once a e,
    fun g tg a e f _ _ _ _ hlive => ?_⟩
  rw [hnone] at hlive
  cases hlive

theorem step_tagRecords {event : NodeEvent} (hd : d.TagRecords) (hstep : d.step event = some d') :
    d'.TagRecords := by
  -- the records are the same for all sessions: take one that does not log in
  obtain ⟨s, hs⟩ : ∃ s, ¬ event.LogsIn s := by
    cases event with
    | login t =>
        refine ⟨t + 1, fun h => ?_⟩
        have h : t = t + 1 := h
        omega
    | _ => exact ⟨0, id⟩
  exact (step_relayed hd.fresh hs hstep).records hd

theorem step_describes {event : NodeEvent} (hd : d.TagRecords) (hstep : d.step event = some d') :
    PushesTags d d' := by
  have hvalues : .pushSet ∉ event.kinds → PushesTags d d' :=
    fun hkinds => ((step_effects hd.fresh hstep).noValue hkinds).pushesTags
  cases event with
  | login => exact hvalues (by simp [NodeEvent.kinds, builds])
  | disconnect => exact hvalues (by simp [NodeEvent.kinds, departs])
  | command t cmd =>
      rcases ite_cases hstep with rfl | ⟨-, h⟩
      · exact PushesOnly.refl _
      cases cmd with
      | tagSet => exact vsHandleTagSet_describes hd.owned h
      | tagCreateAck => exact vsHandleTagCreateAck_describes hd.owned h
      | taggroupSubscribe => exact vsHandleTaggroupSubscribe_describes hd.owned h
      | _ => exact hvalues (by simp [NodeEvent.kinds, NodeCmd.kinds, leaves])

/-- Every value that is pushed in a run was the one of the tag when it was pushed. -/
theorem run_describes {events : List NodeEvent} (hd : d.TagRecords)
    (hrun : run step d events = some d') :
    PushesOnly (fun p => p.cmd.isTagSet →
      ∃ m d₁, run step d (events.take m) = some d₁ ∧ d₁.Describes p) d d' := by
  induction events generalizing d with
  | nil =>
      obtain rfl := Option.some.inj hrun
      exact PushesOnly.refl _
  | cons event rest ih =>
      obtain ⟨d₁, hstep, hrest⟩ := Option.bind_eq_some_iff.mp hrun
      have hfirst : PushesTags d d₁ := step_describes hd hstep
      refine (hfirst.mono fun p hp hset => ?_).trans ((ih (step_tagRecords hd hstep) hrest).mono
        fun p hp hset => ?_)
      · refine ⟨1, d₁, ?_, hp hset⟩
        rw [List.take_succ_cons, List.take_zero, run_cons hstep, run_nil]
      · obtain ⟨m, d₂, hm, hdescribes⟩ := hp hset
        refine ⟨m + 1, d₂, ?_, hdescribes⟩
        rw [List.take_succ_cons, run_cons hstep, hm]

/-- **Replicas of tags.**  From any state that the server reaches, and for any events of any
clients, in which the session is not given to another client: when what the client has of tags
shows the values that it is to know at first, then with the `Tag_Set` commands that were pushed
to it in the meantime it does so at the end.  All these commands describe the tags as they were
when they were pushed. -/
theorem tag_replicas_follow {users : List VSUser} {superUser otherUsers : ℕ}
    {realname : ℕ → List UInt8} (hinit : vsNodesInit users superUser otherUsers realname = some d)
    {earlier events : List NodeEvent} {d₀ : VSData} (hearlier : run step d earlier = some d₀)
    (hrun : run step d₀ events = some d') (hlogin : ∀ event ∈ events, ¬ event.LogsIn s)
    {R : Replica ℕ (List UInt8)} (hR : R.Shows (d₀.HoldsTag s)) :
    (R.hearAll ((newPushes d₀ d').filterMap (tagNotice s))).Shows (d'.HoldsTag s) ∧
      ∀ p ∈ newPushes d₀ d', p.cmd.isTagSet →
        ∃ m d₁, run step d₀ (events.take m) = some d₁ ∧ d₁.Describes p := by
  have hd₀ : d₀.TagRecords :=
    run_keeps (fun _ _ _ h hstep => step_tagRecords h hstep) (vsNodesInit_tagRecords hinit) hearlier
  refine ⟨?_, (run_describes hd₀ hrun).newPushes⟩
  have hstep : ∀ (e : VSData) event e', e.TagRecords → ¬ event.LogsIn s → e.step event = some e' →
      e'.TagRecords ∧ ∃ log, e'.pushed = e.pushed ++ log ∧
        Relays (e.HoldsTag s) (log.filterMap (tagNotice s)) (e'.HoldsTag s) :=
    fun e event e' he hlogin hstep =>
      ⟨step_tagRecords he hstep, (step_relayed he.fresh hlogin hstep).relays he⟩
  obtain ⟨log, hlog, hrelays⟩ :=
    run_relays pushed (tagNotice s) (fun e => e.HoldsTag s) hstep hd₀ hlogin hrun
  rw [newPushes_of_append hlog]
  exact hrelays R hR

/-- A tag that is set before and after the client acknowledged it. -/
def tagSetEvents : List NodeEvent :=
  [.command 0 (.tagSet 65539 0 0 1 1 [4]), .command 0 (.tagCreateAck 65539 0 0),
    .command 0 (.tagSet 65539 0 0 1 1 [5])]

/-- A client that knows no tag at first has the last value of its tag at the end. -/
theorem tag_replicas_follow_sample :
    ∃ d d₀ d', sampleInit = some d ∧ run step d tagEvents = some d₀ ∧
      run step d₀ tagSetEvents = some d' ∧ d'.HoldsTag 0 37 [5] ∧
      (Replica.hearAll (fun _ => none) ((newPushes d₀ d').filterMap (tagNotice 0))).Shows
        (d'.HoldsTag 0) ∧
      ∀ p ∈ newPushes d₀ d', p.cmd.isTagSet →
        ∃ m d₁, run step d₀ (tagSetEvents.take m) = some d₁ ∧ d₁.Describes p := by
  have hrun : (sampleInit.bind fun d => (run step d tagEvents).bind fun d₀ =>
      (run step d₀ tagSetEvents).map fun d' =>
        ((List.range d₀.next).all fun a => (d₀.tag a).all fun tag =>
            !tag.initialized || (d₀.entity a).all fun e => e.folls.isEmpty,
          (d'.tag 37).any fun tag => tag.initialized && tag.value == some [5],
          (d'.entity 37).any fun e => e.folls.any fun f => f.nodeSub == 35 && f.state == .created,
          d'.subSession 35)) = some (true, true, true, some 0) := by
    decide +kernel
  obtain ⟨d, hinit, hrun⟩ := Option.bind_eq_some_iff.mp hrun
  obtain ⟨d₀, hd₀, hrun⟩ := Option.bind_eq_some_iff.mp hrun
  obtain ⟨d', hd', hrun⟩ := Option.map_eq_some_iff.mp hrun
  simp only [Prod.mk.injEq] at hrun
  obtain ⟨hnone, htag, hentity, hsession⟩ := hrun
  have hR : Replica.Shows (fun _ => none) (d₀.HoldsTag 0) := by
    -- nobody follows a tag that has a value
    rintro a v ⟨tag, e, f, htag, hinit', -, he, hf, -⟩
    have hfresh : d₀.Fresh := run_fresh (vsNodesInit_fresh hinit) hd₀
    have hall := List.all_eq_true.mp hnone a (List.mem_range.mpr (hfresh.entity_lt he))
    rw [htag, he] at hall
    simp only [Option.all_some, hinit', Bool.not_true, Bool.false_or, List.isEmpty_iff] at hall
    rw [hall] at hf
    cases hf
  have hholds : d'.HoldsTag 0 37 [5] := by
    obtain ⟨tag, htag, hvalue⟩ := (Option.any_eq_true _ _).mp htag
    obtain ⟨e, he, hfolls⟩ := (Option.any_eq_true _ _).mp hentity
    obtain ⟨f, hf, hfoll⟩ := List.any_eq_true.mp hfolls
    simp only [Bool.and_eq_true, beq_iff_eq] at hvalue hfoll
    refine ⟨tag, e, f, htag, hvalue.1, hvalue.2, he, hf, by rw [hfoll.1, hsession], Or.inl ?_⟩
    rw [hfoll.2]
    decide
  refine ⟨d, d₀, d', hinit, hd₀, hd', hholds, ?_⟩
  exact tag_replicas_follow hinit hd₀ hd' (by simp [tagSetEvents, NodeEvent.LogsIn]) hR

end VSData

end Verse
