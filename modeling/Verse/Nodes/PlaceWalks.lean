import Verse.Nodes.Places

/-!
# Walking through the tree

What `vs_free_avatar_reference` and the functions it calls do is the walk through the places
in their order, without the session: `vsFreeAvatarReference_walks`.
-/

namespace Verse

open Lib

/-- Where records of a session may be missing in memory, a follower is freed unless the record
of the session is missing. -/
theorem freeFollower_eq_some_iff {session session' : ℕ → Option ℕ} {s : ℕ}
    {folls folls' : List VSEntityFollower} (hlive : ∀ f ∈ folls, (session f.nodeSub).isSome)
    (hkept : ∀ f ∈ folls, session' f.nodeSub = session f.nodeSub ∨
      (session f.nodeSub = some s ∧ session' f.nodeSub = none))
    (honce : (folls.map fun f => session f.nodeSub).Nodup) :
    freeFollower session' s folls = some folls' ↔
      (∀ f ∈ folls, session f.nodeSub = some s → session' f.nodeSub ≠ none) ∧
        folls' = folls.filter fun f => !(session f.nodeSub == some s) := by
  induction folls generalizing folls' with
  | nil => simp [freeFollower, eq_comm]
  | cons f rest ih =>
      obtain ⟨t, ht⟩ := Option.isSome_iff_exists.mp (hlive f (by simp))
      rw [List.map_cons, List.nodup_cons] at honce
      have ih := fun folls' => @ih folls' (fun g hg => hlive g (List.mem_cons_of_mem f hg))
        (fun g hg => hkept g (List.mem_cons_of_mem f hg)) honce.2
      by_cases hts : t = s
      · subst hts
        -- the session has no other record in the rest
        have hrest : ∀ g ∈ rest, session g.nodeSub ≠ some t := fun g hg hgt =>
          honce.1 (List.mem_map.mpr ⟨g, hg, hgt.trans ht.symm⟩)
        have hfilter : (rest.filter fun g => !(session g.nodeSub == some t)) = rest :=
          List.filter_eq_self.mpr fun g hg => by simp [hrest g hg]
        rw [List.filter_cons_of_neg (by simp [ht]), hfilter, freeFollower]
        rcases hkept f (by simp) with hsame | ⟨-, hnone⟩
        · simp only [hsame, ht, if_true]
          constructor
          · intro heq
            obtain rfl := Option.some.inj heq
            refine ⟨fun g hg hgt => ?_, rfl⟩
            rcases List.mem_cons.mp hg with rfl | hg
            · simp [hsame, ht]
            · exact absurd hgt (hrest g hg)
          · rintro ⟨-, rfl⟩
            rfl
        · simp only [hnone]
          constructor
          · rintro ⟨⟩
          · rintro ⟨hall, -⟩
            exact absurd hnone (hall f (by simp) ht)
      · have hsame : session' f.nodeSub = some t := by
          rcases hkept f (by simp) with hsame | ⟨hown, -⟩
          · rw [hsame, ht]
          · exact absurd (Option.some.inj (ht.symm.trans hown)) hts
        rw [List.filter_cons_of_pos (by simp [ht, hts]), freeFollower, hsame]
        simp only [if_neg hts, Option.map_eq_some_iff, ih]
        constructor
        · rintro ⟨rest', ⟨hall, rfl⟩, rfl⟩
          refine ⟨fun g hg hgs => ?_, rfl⟩
          rcases List.mem_cons.mp hg with rfl | hg
          · exact absurd (Option.some.inj (ht.symm.trans hgs)) hts
          · exact hall g hg hgs
        · rintro ⟨hall, rfl⟩
          exact ⟨_, ⟨fun g hg => hall g (List.mem_cons_of_mem f hg), rfl⟩, rfl⟩

namespace VSData

variable {d : VSData} {s : ℕ} {xs ys : List RecordPlace}

/-! ## Lists of records -/

/-- Records of subscribers of a node, at most one of each session. -/
structure Attended (d : VSData) (node : VSNode) (rs : List ℕ) : Prop where
  subset : ∀ r ∈ rs, r ∈ node.nodeSubs
  once : (rs.map d.subSession).Nodup

/-- The followers of an entity are subscribers of the node. -/
def FollowedFrom (d : VSData) (node : VSNode) (a : ℕ) : Prop :=
  ∃ e, d.entity a = some e ∧ d.Attended node (e.folls.map VSEntityFollower.nodeSub)

theorem findSub_eq {rs : List ℕ} (hlive : ∀ r ∈ rs, (d.subSession r).isSome) :
    d.findSub s rs = some (rs.find? (d.owns s)) := by
  induction rs with
  | nil => rfl
  | cons r rest ih =>
      obtain ⟨t, ht⟩ := Option.isSome_iff_exists.mp (hlive r (by simp))
      rw [findSub, ht]
      by_cases hts : t = s
      · rw [List.find?_cons_of_pos (by simp [owns, ht, hts])]
        simp [hts]
      · rw [List.find?_cons_of_neg (by simp [owns, ht, hts]),
          ← ih fun r' hr' => hlive r' (List.mem_cons_of_mem r hr')]
        simp [hts]

theorem findSub_congr {d' : VSData} {rs : List ℕ}
    (h : ∀ r ∈ rs, d'.subSession r = d.subSession r) : d'.findSub s rs = d.findSub s rs := by
  induction rs with
  | nil => rfl
  | cons r rest ih =>
      rw [findSub, findSub, h r (by simp), ih fun r' hr' => h r' (List.mem_cons_of_mem r hr')]

theorem filter_of_find?_none {rs : List ℕ} (h : rs.find? (d.owns s) = none) :
    (rs.filter fun r => !d.owns s r) = rs :=
  List.filter_eq_self.mpr fun r hr => by simpa using List.find?_eq_none.mp h r hr

/-- The one record of a session is erased. -/
theorem erase_eq_filter {rs : List ℕ} {r : ℕ} (honce : (rs.map d.subSession).Nodup)
    (hr : rs.find? (d.owns s) = some r) : rs.erase r = rs.filter fun r => !d.owns s r := by
  induction rs with
  | nil => cases hr
  | cons x rest ih =>
      rw [List.map_cons, List.nodup_cons] at honce
      by_cases hx : d.owns s x
      · rw [List.find?_cons_of_pos hx] at hr
        obtain rfl := Option.some.inj hr
        rw [List.erase_cons_head, List.filter_cons_of_neg (by simp [hx])]
        refine (List.filter_eq_self.mpr fun y hy => ?_).symm
        rw [Bool.not_eq_true', Bool.eq_false_iff]
        intro hown
        exact honce.1 (List.mem_map.mpr ⟨y, hy, by rw [owns_iff.mp hx, owns_iff.mp hown]⟩)
      · rw [List.find?_cons_of_neg hx] at hr
        have hne : ¬ x == r := by
          rintro heq
          rw [beq_iff_eq.mp heq] at hx
          exact hx (List.find?_some hr)
        rw [List.erase_cons_tail hne, List.filter_cons_of_pos (by simp [hx]), ih honce.2 hr]

/-! ## One place -/

/-- The followers in the state after visits: those of the session are missing when the entity
was visited. -/
theorem after_followers {a : ℕ} {e : VSEntity} (he : d.entity a = some e) :
    ∃ folls, (d.after s xs).entity a = some { e with folls } ∧ folls.Sublist e.folls ∧
      (folls.filter fun f => !d.owns s f.nodeSub) = (d.entityWithout s e).folls ∧
      ((∀ f ∈ folls, d.owns s f.nodeSub → f.nodeSub ∉ xs.flatMap d.subsAt) ↔
        d.CanVisit s xs (.followers a)) := by
  by_cases hvisited : RecordPlace.followers a ∈ xs
  · refine ⟨(d.entityWithout s e).folls, by simp [after, hvisited, he, entityWithout],
      List.filter_sublist, by simp [entityWithout], fun _ hnot => absurd hvisited hnot,
      fun _ f hf hown => ?_⟩
    have hnot := (List.mem_filter.mp hf).2
    rw [hown] at hnot
    cases hnot
  · refine ⟨e.folls, by simp [after, hvisited, he], List.Sublist.refl _, rfl,
      fun hall _ e' f he' hf => ?_, fun hcan f hf => hcan hvisited e f he hf⟩
    obtain rfl := Option.some.inj (he.symm.trans he')
    exact hall f hf

theorem freeFollower_walks {a : ℕ} {e : VSEntity} (he : d.entity a = some e)
    (hlive : ∀ f ∈ e.folls, (d.subSession f.nodeSub).isSome)
    (honce : (e.folls.map fun f => d.subSession f.nodeSub).Nodup) :
    Walks (d.after s) (d.CanVisit s) (fun t => t.freeFollower a s) xs [.followers a] := by
  obtain ⟨folls, hstored, hsub, hfilter, hcan⟩ := @after_followers d s xs a e he
  have hkept : ∀ f ∈ folls, (d.after s xs).subSession f.nodeSub = d.subSession f.nodeSub ∨
      (d.subSession f.nodeSub = some s ∧ (d.after s xs).subSession f.nodeSub = none) := by
    intro f _
    rw [after_subSession]
    split
    · rename_i hfreed
      exact Or.inr ⟨owns_iff.mp hfreed.1, rfl⟩
    · exact Or.inl rfl
  have hread : (∀ f ∈ folls, d.subSession f.nodeSub = some s →
      (d.after s xs).subSession f.nodeSub ≠ none) ↔ d.CanVisit s xs (.followers a) := by
    rw [← hcan]
    refine forall₂_congr fun f _ => ?_
    rw [← owns_iff]
    refine imp_congr_right fun hown => ?_
    rw [after_subSession]
    split
    · rename_i hfreed
      exact ⟨fun h => absurd rfl h, fun h => absurd hfreed.2 h⟩
    · rename_i hnot
      exact ⟨fun _ hmem => hnot ⟨hown, hmem⟩, fun _ => by simp [owns_iff.mp hown]⟩
  intro d'
  have hfree := fun folls' => @freeFollower_eq_some_iff d.subSession (d.after s xs).subSession s
    folls folls' (fun f hf => hlive f (hsub.subset hf)) hkept (honce.sublist (hsub.map _))
  simp only [Passable, and_true, VSData.freeFollower, hstored, Option.bind_eq_bind,
    Option.bind_some, Option.bind_eq_some_iff]
  rw [← hread, ← after_setEntity he]
  constructor
  · rintro ⟨folls', hfolls', h⟩
    obtain ⟨hall, rfl⟩ := (hfree folls').mp hfolls'
    refine ⟨hall, ?_⟩
    rw [← Option.some.inj h]
    exact congrArg (fun l => (d.after s xs).setEntity a (some { e with folls := l })) hfilter
  · rintro ⟨hall, rfl⟩
    refine ⟨(d.entityWithout s e).folls, (hfree _).mpr ⟨hall, hfilter.symm⟩, rfl⟩

/-- The subscribers of the node are in memory after the visits. -/
def Present (d : VSData) (xs : List RecordPlace) (node : VSNode) : Prop :=
  ∀ r ∈ node.nodeSubs, (d.subSession r).isSome ∧ r ∉ xs.flatMap d.subsAt

theorem Present.append {node : VSNode} (h : d.Present xs node) (hys : ∀ n, .node n ∉ ys) :
    d.Present (xs ++ ys) node := by
  refine fun r hr => ⟨(h r hr).1, ?_⟩
  rw [List.flatMap_append, List.mem_append, not_or]
  refine ⟨(h r hr).2, fun hmem => ?_⟩
  obtain ⟨x, hx, hrx⟩ := List.mem_flatMap.mp hmem
  cases x with
  | node n => exact hys n hx
  | _ => cases hrx

theorem FollowedFrom.walks {node : VSNode} {a : ℕ} (h : d.FollowedFrom node a)
    (hpresent : d.Present xs node) :
    Walks (d.after s) (d.CanVisit s) (fun t => t.freeFollower a s) ys [.followers a] := by
  obtain ⟨e, he, hfolls⟩ := h
  refine freeFollower_walks he (fun f hf => (hpresent _ ?_).1) ?_
  · exact hfolls.subset _ (List.mem_map_of_mem hf)
  · have honce := hfolls.once
    rwa [List.map_map] at honce

/-- The records that are looked at are read. -/
theorem Attended.findSub {node : VSNode} {rs : List ℕ} (h : d.Attended node rs)
    (hpresent : d.Present xs node) {rs' : List ℕ} (hrs' : rs' ⊆ rs) :
    (d.after s xs).findSub s rs' = some (rs'.find? (d.owns s)) := by
  rw [findSub_congr fun r hr =>
    after_subSession_of_not_mem (hpresent r (h.subset r (hrs' hr))).2]
  exact findSub_eq fun r hr => (hpresent r (h.subset r (hrs' hr))).1

/-! ## Tag groups and layers -/

/-- Where a tag group was visited, its tags were, as far as the session is subscribed to it. -/
def Complete (d : VSData) (s : ℕ) (xs : List RecordPlace) : Prop :=
  ∀ g tg b, .tagGroup g ∈ xs → d.tagGroup g = some tg → d.attends s tg → b ∈ tg.tags →
    .followers b.2 ∈ xs

theorem Complete.append (hxs : d.Complete s xs) (hys : d.Complete s ys) :
    d.Complete s (xs ++ ys) := by
  intro g tg b hg htg hattends hb
  rcases List.mem_append.mp hg with hg | hg
  · exact List.mem_append_left _ (hxs g tg b hg htg hattends hb)
  · exact List.mem_append_right _ (hys g tg b hg htg hattends hb)

theorem Complete.flatMap {α : Type*} {l : List α} {visits : α → List RecordPlace}
    (h : ∀ x ∈ l, d.Complete s (visits x)) : d.Complete s (l.flatMap visits) := by
  intro g tg b hg htg hattends hb
  obtain ⟨x, hx, hg⟩ := List.mem_flatMap.mp hg
  exact List.mem_flatMap.mpr ⟨x, hx, h x hx g tg b hg htg hattends hb⟩

theorem complete_of_no_tagGroup (h : ∀ g, .tagGroup g ∉ xs) : d.Complete s xs :=
  fun g _ _ hg => absurd hg (h g)

theorem mem_tagGroupVisits {g : ℕ} {x : RecordPlace} :
    x ∈ d.tagGroupVisits s g ↔ x = .followers g ∨ x = .tagGroup g ∨
      ∃ tg b, d.tagGroup g = some tg ∧ d.attends s tg ∧ b ∈ tg.tags ∧ x = .followers b.2 := by
  rw [tagGroupVisits, List.mem_cons, List.mem_cons]
  refine or_congr_right (or_congr_right ?_)
  cases htg : d.tagGroup g with
  | none => simp
  | some tg =>
      by_cases hattends : d.attends s tg
      · simp only [hattends, if_true, List.mem_map]
        constructor
        · rintro ⟨b, hb, rfl⟩
          exact ⟨tg, b, rfl, hattends, hb, rfl⟩
        · rintro ⟨tg', b, htg', -, hb, rfl⟩
          obtain rfl := Option.some.inj htg'
          exact ⟨b, hb, rfl⟩
      · simp only [hattends]
        constructor
        · rintro ⟨⟩
        · rintro ⟨tg', b, htg', hattends', -⟩
          obtain rfl := Option.some.inj htg'
          exact absurd hattends' hattends

theorem tagGroupVisits_complete (g : ℕ) : d.Complete s (d.tagGroupVisits s g) := by
  intro g' tg b hg' htg hattends hb
  rcases mem_tagGroupVisits.mp hg' with heq | heq | ⟨tg', b', -, -, -, heq⟩
  · cases heq
  · obtain rfl := RecordPlace.tagGroup.inj heq
    exact mem_tagGroupVisits.mpr (Or.inr (Or.inr ⟨tg, b, htg, hattends, hb, rfl⟩))
  · cases heq

theorem node_not_mem_tagGroupVisits (n g : ℕ) : .node n ∉ d.tagGroupVisits s g := by
  intro hn
  rcases mem_tagGroupVisits.mp hn with heq | heq | ⟨_, _, -, -, -, heq⟩ <;> cases heq

/-- What was visited is as it was. -/
theorem revisit_walks {zs : List RecordPlace} (hmem : ∀ x ∈ zs, x ∈ ys) (hnode : ∀ n, .node n ∉ zs) :
    Walks (d.after s) (d.CanVisit s) some ys zs := by
  intro d'
  rw [after_append_of_mem hmem hnode, Option.some.injEq, eq_comm]
  refine (and_iff_right (passable_iff.mpr fun l y rest hzs => ?_)).symm
  have hy := hmem y (by rw [hzs]; simp)
  cases y with
  | followers a => exact fun hnot => absurd (List.mem_append_left l hy) hnot
  | _ => trivial

/-- The tags of a tag group. -/
theorem vsTagFreeAvatarReference_walks {node : VSNode} {tags : HashTable}
    (hpresent : d.Present xs node) (htags : ∀ b ∈ tags, d.FollowedFrom node b.2) :
    Walks (d.after s) (d.CanVisit s) (fun t => t.vsTagFreeAvatarReference tags s) ys
      (tags.map fun b => .followers b.2) := by
  rw [List.map_eq_flatMap]
  refine Walks.foldlM fun tags₁ b tags₂ htags' => ?_
  exact (htags b (by rw [htags']; simp)).walks hpresent

theorem vsTgFreeAvatarReference_walks {node : VSNode} {g : ℕ} {tg : VSTagGroup}
    (htg : d.tagGroup g = some tg) (hsubs : d.Attended node tg.subs) (hg : d.FollowedFrom node g)
    (htags : ∀ b ∈ tg.tags, d.FollowedFrom node b.2) (hpresent : d.Present xs node)
    (hcomplete : d.Complete s xs) :
    Walks (d.after s) (d.CanVisit s) (fun t => t.vsTgFreeAvatarReference g s) xs
      (d.tagGroupVisits s g) := by
  have hvisits : d.tagGroupVisits s g = [.followers g] ++ ([.tagGroup g] ++
      if d.attends s tg then tg.tags.map fun b => .followers b.2 else []) := by
    rw [tagGroupVisits, htg]
    rfl
  rw [hvisits]
  refine (hg.walks hpresent).bind ?_
  have hpresent' : d.Present (xs ++ [.followers g]) node := hpresent.append (by simp)
  have hcomplete' : d.Complete s (xs ++ [.followers g]) :=
    hcomplete.append (complete_of_no_tagGroup (by simp))
  generalize xs ++ [.followers g] = ys at hpresent' hcomplete'
  by_cases hvisited : RecordPlace.tagGroup g ∈ ys
  · -- the session is gone, also from the tags
    have hstored : (d.after s ys).tagGroup g = some (d.tagGroupWithout s tg) := by
      simp [after, hvisited, htg]
    have hfind : (d.tagGroupWithout s tg).subs.find? (d.owns s) = none := by
      simp [tagGroupWithout]
    have hread := hsubs.findSub (s := s) hpresent'
      (List.filter_subset_self (p := fun r => !d.owns s r) tg.subs)
    refine Walks.congr (f := some) (revisit_walks (fun x hx => ?_) fun n hn => ?_) ?_
    · rcases List.mem_append.mp hx with hx | hx
      · rwa [List.mem_singleton.mp hx]
      · split at hx
        · rename_i hattends
          obtain ⟨b, hb, rfl⟩ := List.mem_map.mp hx
          exact hcomplete' g tg b hvisited htg hattends hb
        · cases hx
    · rcases List.mem_append.mp hn with hn | hn
      · cases List.mem_singleton.mp hn
      · split at hn
        · obtain ⟨b, -, heq⟩ := List.mem_map.mp hn
          cases heq
        · cases hn
    · simp only [hstored, Option.bind_eq_bind, Option.bind_some]
      rw [show (d.tagGroupWithout s tg).subs = tg.subs.filter fun r => !d.owns s r from rfl] at hfind ⊢
      rw [hread, hfind]
      rfl
  · have hstored : (d.after s ys).tagGroup g = some tg := by simp [after, hvisited, htg]
    refine Walks.congr (f := fun t => (some (d.after s (ys ++ [.tagGroup g]))).bind fun t =>
      if d.attends s tg then t.vsTagFreeAvatarReference tg.tags s else some t)
      (Walks.bind (f := fun _ => some (d.after s (ys ++ [.tagGroup g])))
        (Walks.visit trivial rfl) ?_) ?_
    · by_cases hattends : d.attends s tg
      · simp only [hattends, if_true]
        exact vsTagFreeAvatarReference_walks hpresent htags
      · simp only [hattends]
        exact Walks.stay rfl
    · have hread := hsubs.findSub (s := s) hpresent' (List.Subset.refl tg.subs)
      simp only [hstored, Option.bind_eq_bind, Option.bind_some, hread]
      cases hfind : tg.subs.find? (d.owns s) with
      | none =>
          have hattends : ¬ d.attends s tg := by
            rw [attends, List.any_eq_true, not_exists]
            exact fun r hr => List.find?_eq_none.mp hfind r hr.1 hr.2
          have hsame : d.tagGroupWithout s tg = tg := by
            rw [tagGroupWithout, filter_of_find?_none hfind]
          rw [if_neg hattends, ← after_setTagGroup htg, hsame, setTagGroup, ← hstored,
            Function.update_eq_self]
          rfl
      | some r =>
          have hattends : d.attends s tg :=
            List.any_eq_true.mpr ⟨r, List.mem_of_find?_eq_some hfind, List.find?_some hfind⟩
          rw [if_pos hattends, ← after_setTagGroup htg, tagGroupWithout,
            ← erase_eq_filter hsubs.once hfind]

/-- A layer, once the followers were visited. -/
theorem vsLayerUnsubscribe_walks {node : VSNode} {a : ℕ} {layer : VSLayer}
    (hlayer : d.layer a = some layer) (hsubs : d.Attended node layer.subs)
    (hpresent : d.Present xs node) :
    Walks (d.after s) (d.CanVisit s) (fun t => t.vsLayerUnsubscribe a s) xs [.layer a] := by
  refine Walks.visit trivial ?_
  by_cases hvisited : RecordPlace.layer a ∈ xs
  · have hstored : (d.after s xs).layer a = some (d.layerWithout s layer) := by
      simp [after, hvisited, hlayer]
    have hfind : (d.layerWithout s layer).subs.find? (d.owns s) = none := by
      simp [layerWithout]
    have hread := hsubs.findSub (s := s) hpresent
      (List.filter_subset_self (p := fun r => !d.owns s r) layer.subs)
    rw [after_append_of_mem (by simpa using hvisited) (by simp), vsLayerUnsubscribe]
    simp only [hstored, Option.bind_eq_bind, Option.bind_some]
    rw [show (d.layerWithout s layer).subs = layer.subs.filter fun r => !d.owns s r from rfl]
      at hfind ⊢
    rw [hread, hfind]
    rfl
  · have hstored : (d.after s xs).layer a = some layer := by simp [after, hvisited, hlayer]
    have hread := hsubs.findSub (s := s) hpresent (List.Subset.refl layer.subs)
    rw [← after_setLayer hlayer, vsLayerUnsubscribe]
    simp only [hstored, Option.bind_eq_bind, Option.bind_some, hread]
    cases hfind : layer.subs.find? (d.owns s) with
    | none =>
        have hsame : d.layerWithout s layer = layer := by
          rw [layerWithout, filter_of_find?_none hfind]
        rw [hsame, setLayer, ← hstored, Function.update_eq_self]
        rfl
    | some r =>
        rw [layerWithout, ← erase_eq_filter hsubs.once hfind]
        rfl

theorem vsLayerFreeAvatarReference_walks {node : VSNode} {a : ℕ} {layer : VSLayer}
    (hlayer : d.layer a = some layer) (hsubs : d.Attended node layer.subs)
    (ha : d.FollowedFrom node a) (hpresent : d.Present xs node) :
    Walks (d.after s) (d.CanVisit s) (fun t => t.vsLayerFreeAvatarReference a s) xs
      (layerVisits a) :=
  (ha.walks hpresent).bind
    (vsLayerUnsubscribe_walks hlayer hsubs (hpresent.append (by simp)))

/-! ## A node -/

/-- A node after a record was freed and commands were pushed. -/
def leaveNode (d : VSData) (n : ℕ) (node : VSNode) (found : Option ℕ) (sent : List Push) : VSData :=
  { d with
    node := Function.update d.node n
      (some { node with nodeSubs := found.elim node.nodeSubs node.nodeSubs.erase })
    sub := found.elim d.sub fun r => Function.update d.sub r none
    pushed := d.pushed ++ sent }

theorem leaveNode_none {n : ℕ} {node : VSNode} (hnode : d.node n = some node) :
    d.leaveNode n node none [] = d := by
  rw [leaveNode, List.append_nil]
  simp only [Option.elim_none]
  rw [← hnode, Function.update_eq_self]

theorem exists_sub {r t : ℕ} (h : d.subSession r = some t) :
    ∃ sub, d.sub r = some sub ∧ sub.session = t := Option.map_eq_some_iff.mp h

theorem unlockPush_congr {d' : VSData} {n : ℕ} {node : VSNode} {rs : List ℕ}
    (hsub : ∀ r ∈ rs, d'.sub r = d.sub r) (hsession : d'.session = d.session) :
    rs.filterMap (d'.unlockPush s n node) = rs.filterMap (d.unlockPush s n node) := by
  refine List.filterMap_congr fun r hr => ?_
  rw [unlockPush, unlockPush, hsub r hr, nodeUnlockCmd, nodeUnlockCmd, hsession]

/-- The loop at a node where the session has at most one record: its record is freed, and when
the node was locked by it the other subscribers are told. -/
theorem freeAvatarSubs_eq {n : ℕ} {node dnode : VSNode} {rs : List ℕ} (wasLocked : Bool)
    (hnode : d.node n = some dnode) (hlive : ∀ r ∈ rs, (d.subSession r).isSome)
    (honce : (rs.map d.subSession).Nodup) :
    freeAvatarSubs n node s wasLocked d rs = some (d.leaveNode n dnode (rs.find? (d.owns s))
      (if wasLocked then rs.filterMap (d.unlockPush s n node) else [])) := by
  induction rs generalizing d dnode with
  | nil =>
      rw [freeAvatarSubs, List.filterMap_nil, ite_self, List.find?_nil, leaveNode_none hnode]
  | cons r rest ih =>
      obtain ⟨t, ht⟩ := Option.isSome_iff_exists.mp (hlive r (by simp))
      obtain ⟨sub, hsub, rfl⟩ := exists_sub ht
      have hrest : ∀ r' ∈ rest, (d.subSession r').isSome := fun r' hr' =>
        hlive r' (List.mem_cons_of_mem r hr')
      rw [List.map_cons, List.nodup_cons] at honce
      by_cases hown : sub.session = s
      · have hfree : d.freeSub n r = some (d.leaveNode n dnode (some r) []) := by
          simp [freeSub, hsub, modifyNode, hnode, leaveNode, setNode, setSub]
        have howned : d.owns s r := by simp [owns, ht, hown]
        have hpush : d.unlockPush s n node r = none := by simp [unlockPush, hsub, hown]
        rw [List.find?_cons_of_pos howned, List.filterMap_cons_none hpush, freeAvatarSubs, hsub]
        simp only [Option.bind_eq_bind, Option.bind_some, if_pos hown, hfree]
        cases wasLocked with
        | false => rfl
        | true =>
            -- the other subscribers belong to other sessions
            have hkept : ∀ r' ∈ rest, (d.leaveNode n dnode (some r) []).sub r' = d.sub r' := by
              intro r' hr'
              refine Function.update_of_ne ?_ _ _
              rintro rfl
              exact honce.1 (List.mem_map_of_mem hr')
            have hsession : ∀ r' ∈ rest,
                (d.leaveNode n dnode (some r) []).subSession r' = d.subSession r' :=
              fun r' hr' => congrArg (Option.map VSNodeSubscriber.session) (hkept r' hr')
            have hnone : rest.find? ((d.leaveNode n dnode (some r) []).owns s) = none := by
              refine List.find?_eq_none.mpr fun r' hr' hown' => ?_
              rw [owns_iff, hsession r' hr'] at hown'
              exact honce.1 (List.mem_map.mpr ⟨r', hr', by rw [hown', ht, hown]⟩)
            simp only [if_true]
            rw [ih (d := d.leaveNode n dnode (some r) []) (Function.update_self _ _ _)
              (fun r' hr' => by
                rw [hsession r' hr']
                exact hrest r' hr')
              (by
                rw [List.map_congr_left hsession]
                exact honce.2), hnone, if_pos rfl, unlockPush_congr hkept rfl]
            simp [leaveNode]
      · have howned : ¬ d.owns s r := by simp [owns, ht, hown]
        have hpush : d.unlockPush s n node r =
            some ⟨sub.session, sub.prio, d.nodeUnlockCmd node s, n, n⟩ := by
          simp [unlockPush, hsub, hown]
        have hsent : ∀ sent, ({ d with pushed := d.pushed ++ sent } : VSData).leaveNode n dnode
            (rest.find? (d.owns s)) (if wasLocked then rest.filterMap (d.unlockPush s n node) else [])
            = d.leaveNode n dnode (rest.find? (d.owns s))
              (sent ++ if wasLocked then rest.filterMap (d.unlockPush s n node) else []) := by
          intro sent
          simp [leaveNode]
        rw [List.find?_cons_of_neg howned, List.filterMap_cons_some hpush, freeAvatarSubs, hsub]
        simp only [Option.bind_eq_bind, Option.bind_some, if_neg hown]
        cases wasLocked with
        | false =>
            simp only [pushSome, Bool.false_eq_true, if_false, Option.bind_some]
            exact ih hnode hrest honce.2
        | true =>
            simp only [pushSome, push, hsub, if_true, Option.map_some, Option.bind_some]
            have hrec := ih (d := { d with pushed := d.pushed ++
              [⟨sub.session, sub.prio, d.nodeUnlockCmd node s, n, n⟩] }) hnode hrest honce.2
            exact hrec.trans (congrArg some (hsent _))

/-- The last part of `vs_free_avatar_reference`. -/
def leaveSubs (d : VSData) (s n : ℕ) : Option VSData := do
  let node ← d.node n
  let wasLocked := node.lock == some s
  let node := { node with lock := if wasLocked then none else node.lock }
  freeAvatarSubs n node s wasLocked (d.setNode n (some node)) node.nodeSubs

theorem mem_subsAt {n r : ℕ} {node : VSNode} (hnode : d.node n = some node) :
    r ∈ d.subsAt (.node n) ↔ r ∈ node.nodeSubs := by
  rw [subsAt, hnode, Option.elim_some]

/-- The node without the lock of the session. -/
def withoutLock (s : ℕ) (node : VSNode) : VSNode :=
  { node with lock := if node.lock == some s then none else node.lock }

theorem leaveSubs_eq {n : ℕ} {node : VSNode} (hnode : d.node n = some node)
    (hlive : ∀ r ∈ node.nodeSubs, (d.subSession r).isSome)
    (honce : (node.nodeSubs.map d.subSession).Nodup) :
    d.leaveSubs s n = some (d.leaveNode n (withoutLock s node) (node.nodeSubs.find? (d.owns s))
      (d.unlocksAt s (.node n))) := by
  have hloop := @freeAvatarSubs_eq (d.setNode n (some (withoutLock s node))) s n
    (withoutLock s node) _ _ (node.lock == some s) (setNode_node d n _) hlive honce
  rw [leaveSubs, hnode]
  refine hloop.trans (congrArg some ?_)
  have hsent : (if node.lock == some s then node.nodeSubs.filterMap
      ((d.setNode n (some (withoutLock s node))).unlockPush s n (withoutLock s node)) else []) =
      d.unlocksAt s (.node n) := by
    simp only [unlocksAt, hnode, beq_iff_eq]
    rfl
  rw [hsent]
  show leaveNode _ n _ (node.nodeSubs.find? (d.owns s)) _ = _
  simp [leaveNode, setNode, withoutLock]

/-- The record of a session in the list of a node. -/
theorem find?_owns_iff {node : VSNode} (honce : (node.nodeSubs.map d.subSession).Nodup) {r : ℕ} :
    node.nodeSubs.find? (d.owns s) = some r ↔ d.owns s r ∧ r ∈ node.nodeSubs := by
  constructor
  · exact fun h => ⟨List.find?_some h, List.mem_of_find?_eq_some h⟩
  · rintro ⟨hown, hr⟩
    cases hfind : node.nodeSubs.find? (d.owns s) with
    | none => exact absurd hown (List.find?_eq_none.mp hfind r hr)
    | some r' =>
        have hsame : d.subSession r' = d.subSession r := by
          rw [owns_iff.mp hown, owns_iff.mp (List.find?_some hfind)]
        rw [List.inj_on_of_nodup_map honce (List.mem_of_find?_eq_some hfind) hr hsame]

theorem after_leaveNode {n : ℕ} {node : VSNode} (hnode : d.node n = some node)
    (honce : (node.nodeSubs.map d.subSession).Nodup) :
    (d.after s xs).leaveNode n (withoutLock s node) (node.nodeSubs.find? (d.owns s))
      (d.unlocksAt s (.node n)) = d.after s (xs ++ [.node n]) := by
  have hnodes : Function.update (d.after s xs).node n (some { withoutLock s node with
      nodeSubs := (node.nodeSubs.find? (d.owns s)).elim node.nodeSubs node.nodeSubs.erase }) =
      (d.after s (xs ++ [.node n])).node := by
    have hwithout : { withoutLock s node with
        nodeSubs := (node.nodeSubs.find? (d.owns s)).elim node.nodeSubs node.nodeSubs.erase } =
        d.nodeWithout s node := by
      rw [nodeWithout, withoutLock]
      cases hfind : node.nodeSubs.find? (d.owns s) with
      | none => rw [filter_of_find?_none hfind, Option.elim_none]
      | some r => rw [← erase_eq_filter honce hfind, Option.elim_some]
    funext m
    by_cases hm : m = n
    · subst hm
      rw [Function.update_self, hwithout]
      simp [after, hnode]
    · rw [Function.update_of_ne hm]
      simp [after, hm]
  have hsubs : (node.nodeSubs.find? (d.owns s)).elim (d.after s xs).sub
      (fun r => Function.update (d.after s xs).sub r none) = (d.after s (xs ++ [.node n])).sub := by
    funext r
    have hmem : (d.owns s r ∧ r ∈ (xs ++ [RecordPlace.node n]).flatMap d.subsAt) ↔
        (d.owns s r ∧ r ∈ xs.flatMap d.subsAt) ∨ node.nodeSubs.find? (d.owns s) = some r := by
      rw [find?_owns_iff honce, List.flatMap_append, List.mem_append, List.flatMap_singleton,
        mem_subsAt hnode, and_or_left]
    have hafter : (d.after s (xs ++ [.node n])).sub r =
        if (d.owns s r ∧ r ∈ xs.flatMap d.subsAt) ∨ node.nodeSubs.find? (d.owns s) = some r then
          none
        else d.sub r := if_congr hmem rfl rfl
    rw [hafter]
    cases hfind : node.nodeSubs.find? (d.owns s) with
    | none => simp [after]
    | some r' =>
        by_cases hr : r = r'
        · subst hr
          simp
        · rw [Option.elim_some, Function.update_of_ne hr]
          simp [after, Ne.symm hr]
  simp only [leaveNode]
  rw [hsubs, show (withoutLock s node).nodeSubs = node.nodeSubs from rfl, hnodes]
  simp [after]

theorem leaveSubs_walks {n : ℕ} {node : VSNode} (hnode : d.node n = some node)
    (honce : (node.nodeSubs.map d.subSession).Nodup) (hpresent : d.Present xs node)
    (hn : .node n ∉ xs) :
    Walks (d.after s) (d.CanVisit s) (fun t => t.leaveSubs s n) xs [.node n] := by
  refine Walks.visit trivial ?_
  have hsession : ∀ r ∈ node.nodeSubs, (d.after s xs).subSession r = d.subSession r :=
    fun r hr => after_subSession_of_not_mem (hpresent r hr).2
  have hsub : ∀ r ∈ node.nodeSubs, (d.after s xs).sub r = d.sub r := fun r hr =>
    if_neg fun hfreed => (hpresent r hr).2 hfreed.2
  have hlive : ∀ r ∈ node.nodeSubs, ((d.after s xs).subSession r).isSome := fun r hr => by
    rw [hsession r hr]
    exact (hpresent r hr).1
  have hfind : node.nodeSubs.find? ((d.after s xs).owns s) = node.nodeSubs.find? (d.owns s) := by
    have hread := findSub_eq (s := s) hlive
    rw [findSub_congr hsession, findSub_eq fun r hr => (hpresent r hr).1] at hread
    exact (Option.some.inj hread).symm
  have hunlocks : (d.after s xs).unlocksAt s (.node n) = d.unlocksAt s (.node n) := by
    rw [unlocksAt, unlocksAt, after_node hn, hnode]
    simp only [unlockPush_congr hsub rfl]
  have honce' : (node.nodeSubs.map (d.after s xs).subSession).Nodup := by
    rw [List.map_congr_left hsession]
    exact honce
  rw [leaveSubs_eq ((after_node hn).trans hnode) hlive honce', hfind, hunlocks,
    after_leaveNode hnode honce]

end VSData

end Verse
