import Verse.Nodes.LifeCycle
import Verse.Nodes.Rooted
import Verse.Nodes.Subscribers

/-!
# Who is told about a move

The end of `vs_handle_link_change` goes through three lists: the subscribers of the old parent
and the followers of the child are sent `Node_Link`, and the subscribers of the new parent that
were not sent anything yet are sent `Node_Create`.

* Each list tells every client at most once, and the sessions that are told are marked
  (`Told`, `tellReaders`, `tellFollowers`).
* A subscriber of the new parent that is left follows the child afterwards (`introduceAll`).

A client that can read the old parent need not follow its children: when it was given the node by
`Node_Owner` it was not sent them.  It is sent `Node_Link` for a node it does not know, and being
marked it is not sent `Node_Create`.
-/

namespace Verse

open Lib

namespace VSData

variable {d d' : VSData} {a n r t old parent child : ℕ} {cmd : OutCmd}

/-! ## Clients -/

/-- The session follows the entity. -/
def Follows (d : VSData) (a t : ℕ) : Prop := ∃ e, d.entity a = some e ∧ t ∈ d.followers e

/-- The session is subscribed to the node and can read it. -/
def Reads (d : VSData) (n t : ℕ) : Prop :=
  ∃ node r, d.node n = some node ∧ r ∈ node.nodeSubs ∧ d.subSession r = some t ∧
    d.vsNodeCanRead t node

/-- What a move is meant to tell: every client is sent one command at most, a client that follows
the child is sent the link, and a client that does not, but can read the new parent, is sent the
child and follows it. -/
def InformsOnce (d : VSData) (parent child : ℕ) (d' : VSData) : Prop :=
  ∃ pnode cnode new, d.node parent = some pnode ∧ d.node child = some cnode ∧
    d'.pushed = d.pushed ++ new ∧ (new.map Push.session).Nodup ∧
    (∀ t, d.Follows child t → ∃ p ∈ new, p.session = t ∧ p.cmd = .nodeLink pnode.id cnode.id) ∧
    ∀ t, ¬ d.Follows child t → d.Reads parent t →
      (∃ p ∈ new, p.session = t ∧
        p.cmd = .nodeCreate cnode.id pnode.id (d.userId cnode.owner) cnode.customType) ∧
      d'.Follows child t

instance : Decidable (d.Follows a t) :=
  decidable_of_iff ((d.entity a).any fun e => decide (t ∈ d.followers e))
    (by simp [Follows, Option.any_eq_true])

instance : Decidable (d.Reads n t) :=
  decidable_of_iff ((d.node n).any fun node => node.nodeSubs.any fun r =>
    d.subSession r == some t && d.vsNodeCanRead t node)
    (by simp [Reads, Option.any_eq_true, List.any_eq_true])

theorem subSession_eq_some {s : ℕ} :
    d.subSession r = some s ↔ ∃ sub, d.sub r = some sub ∧ sub.session = s :=
  Option.map_eq_some_iff

/-! ## The loops -/

/-- A round of the loop over the subscribers of the old parent. -/
def tellReader (onode : VSNode) (cmd : OutCmd) (child : ℕ) (x : VSData × List ℕ) (r : ℕ) :
    Option (VSData × List ℕ) := do
  let sub ← x.1.sub r
  if x.1.vsNodeCanRead sub.session onode then
    let d ← x.1.push r cmd child child
    pure (d, sub.session :: x.2)
  else pure x

/-- A round of the loop over the followers of the child. -/
def tellFollower (cmd : OutCmd) (child : ℕ) (x : VSData × List ℕ) (f : VSEntityFollower) :
    Option (VSData × List ℕ) := do
  let sub ← x.1.sub f.nodeSub
  if sub.session ∈ x.2 then pure x
  else
    let d ← x.1.push f.nodeSub cmd child child
    pure (d, sub.session :: x.2)

/-- A round of the loop over the subscribers of the new parent. -/
def introduce (pnode : VSNode) (told : List ℕ) (parent child : ℕ) (d : VSData) (r : ℕ) :
    Option VSData := do
  let sub ← d.sub r
  if sub.session ∉ told ∧ d.vsNodeCanRead sub.session pnode then
    d.vsNodeSendCreate r child none parent
  else pure d

theorem sendLinkChange_rounds : d.sendLinkChange old parent child = some d' ↔
    ∃ onode pnode cnode e x y, d.node old = some onode ∧ d.node parent = some pnode ∧
      d.node child = some cnode ∧ d.entity child = some e ∧
      onode.nodeSubs.foldlM (tellReader onode (.nodeLink pnode.id cnode.id) child) (d, []) =
        some x ∧
      e.folls.foldlM (tellFollower (.nodeLink pnode.id cnode.id) child) x = some y ∧
      pnode.nodeSubs.foldlM (introduce pnode y.2 parent child) y.1 = some d' := by
  constructor
  · intro h
    obtain ⟨onode, honode, h⟩ := Option.bind_eq_some_iff.mp h
    obtain ⟨pnode, hpnode, h⟩ := Option.bind_eq_some_iff.mp h
    obtain ⟨cnode, hcnode, h⟩ := Option.bind_eq_some_iff.mp h
    obtain ⟨e, he, h⟩ := Option.bind_eq_some_iff.mp h
    obtain ⟨x, hx, h⟩ := Option.bind_eq_some_iff.mp h
    obtain ⟨y, hy, h⟩ := Option.bind_eq_some_iff.mp h
    exact ⟨onode, pnode, cnode, e, x, y, honode, hpnode, hcnode, he, hx, hy, h⟩
  · rintro ⟨onode, pnode, cnode, e, x, y, honode, hpnode, hcnode, he, hx, hy, h⟩
    refine Option.bind_eq_some_iff.mpr ⟨onode, honode, ?_⟩
    refine Option.bind_eq_some_iff.mpr ⟨pnode, hpnode, ?_⟩
    refine Option.bind_eq_some_iff.mpr ⟨cnode, hcnode, ?_⟩
    refine Option.bind_eq_some_iff.mpr ⟨e, he, ?_⟩
    refine Option.bind_eq_some_iff.mpr ⟨x, hx, ?_⟩
    exact Option.bind_eq_some_iff.mpr ⟨y, hy, h⟩

/-! ## The clients that are sent the link -/

/-- The command was sent to the marked sessions, and once to each of them. -/
structure Told (d : VSData) (cmd : OutCmd) (x : VSData × List ℕ) : Prop where
  kept : x.1 = { d with pushed := x.1.pushed }
  sent : ∃ new, x.1.pushed = d.pushed ++ new ∧ new.map Push.session = x.2.reverse ∧
    ∀ p ∈ new, p.cmd = cmd
  once : x.2.Nodup

theorem Told.refl (d : VSData) (cmd : OutCmd) : Told d cmd (d, []) :=
  ⟨rfl, ⟨[], by simp, by simp, by simp⟩, List.nodup_nil⟩

theorem Told.sub {x : VSData × List ℕ} (h : Told d cmd x) : x.1.sub = d.sub := by rw [h.kept]

theorem Told.canRead {x : VSData × List ℕ} (h : Told d cmd x) (t : ℕ) (node : VSNode) :
    x.1.vsNodeCanRead t node = d.vsNodeCanRead t node := by
  rw [h.kept]
  rfl

/-- A session that is not marked yet is told. -/
theorem Told.tell {x : VSData × List ℕ} (h : Told d cmd x) {sub : VSNodeSubscriber}
    (hsub : d.sub r = some sub) (hnew : sub.session ∉ x.2) (a n : ℕ) :
    ∃ d', x.1.push r cmd a n = some d' ∧ Told d cmd (d', sub.session :: x.2) := by
  have hsub₁ : x.1.sub r = some sub := by rw [h.sub, hsub]
  refine ⟨_, push_eq_some.mpr ⟨sub, hsub₁, rfl⟩, ?_, ?_, List.nodup_cons.mpr ⟨hnew, h.once⟩⟩
  · conv_lhs => rw [h.kept]
  · obtain ⟨new, hpushed, hsessions, hcmd⟩ := h.sent
    refine ⟨new ++ [⟨sub.session, sub.prio, cmd, a, n⟩], by simp [hpushed], ?_, fun p hp => ?_⟩
    · rw [List.map_append, hsessions, List.reverse_cons]
      rfl
    · rcases List.mem_append.mp hp with hp | hp
      · exact hcmd p hp
      · rw [List.mem_singleton.mp hp]

/-- The loop over the subscribers of the old parent: those that can read it are told. -/
theorem tellReaders (onode : VSNode) (child : ℕ) {subs : List ℕ} {x : VSData × List ℕ}
    (hlive : ∀ r ∈ subs, (d.subSession r).isSome) (honce : (subs.map d.subSession).Nodup)
    (h : Told d cmd x) (hnew : ∀ r ∈ subs, ∀ t ∈ x.2, d.subSession r ≠ some t) :
    ∃ y, subs.foldlM (tellReader onode cmd child) x = some y ∧ Told d cmd y ∧
      ∀ t, t ∈ y.2 ↔ t ∈ x.2 ∨ ∃ r ∈ subs, d.subSession r = some t ∧ d.vsNodeCanRead t onode := by
  induction subs generalizing x with
  | nil => exact ⟨x, rfl, h, by simp⟩
  | cons r rest ih =>
      obtain ⟨s, hs⟩ := Option.isSome_iff_exists.mp (hlive r (by simp))
      obtain ⟨sub, hsub, rfl⟩ := subSession_eq_some.mp hs
      obtain ⟨hfirst, hrest⟩ := List.nodup_cons.mp honce
      have hlive' : ∀ r ∈ rest, (d.subSession r).isSome := fun r' hr' => hlive r' (by simp [hr'])
      have hsub₁ : x.1.sub r = some sub := by rw [h.sub, hsub]
      by_cases hread : d.vsNodeCanRead sub.session onode
      · have hunmarked : sub.session ∉ x.2 := fun hmem => hnew r (by simp) _ hmem hs
        obtain ⟨d₁, hpush, htold⟩ := h.tell hsub hunmarked child child
        -- the other records in the list are those of other sessions
        have hnew' : ∀ r' ∈ rest, ∀ t ∈ sub.session :: x.2, d.subSession r' ≠ some t := by
          intro r' hr' t ht heq
          rcases List.mem_cons.mp ht with rfl | ht
          · exact hfirst (List.mem_map.mpr ⟨r', hr', heq.trans hs.symm⟩)
          · exact hnew r' (by simp [hr']) t ht heq
        obtain ⟨y, hloop, hy, hmarked⟩ := ih hlive' hrest htold hnew'
        refine ⟨y, foldlM_cons_eq_some.mpr ⟨(d₁, sub.session :: x.2), ?_, hloop⟩, hy, fun t => ?_⟩
        · simp [tellReader, hsub₁, h.canRead, hread, hpush]
        · rw [hmarked t]
          simp only [List.mem_cons, exists_eq_or_imp, hs, Option.some.injEq]
          constructor
          · rintro ((rfl | hx) | hr)
            · exact Or.inr (Or.inl ⟨rfl, hread⟩)
            · exact Or.inl hx
            · exact Or.inr (Or.inr hr)
          · rintro (hx | ⟨rfl, -⟩ | hr)
            · exact Or.inl (Or.inr hx)
            · exact Or.inl (Or.inl rfl)
            · exact Or.inr hr
      · obtain ⟨y, hloop, hy, hmarked⟩ := ih hlive' hrest h
          fun r' hr' => hnew r' (by simp [hr'])
        refine ⟨y, foldlM_cons_eq_some.mpr ⟨x, ?_, hloop⟩, hy, fun t => ?_⟩
        · simp [tellReader, hsub₁, h.canRead, hread]
        · rw [hmarked t]
          simp only [List.mem_cons, exists_eq_or_imp, hs, Option.some.injEq]
          constructor
          · rintro (hx | hr)
            · exact Or.inl hx
            · exact Or.inr (Or.inr hr)
          · rintro (hx | ⟨rfl, hcan⟩ | hr)
            · exact Or.inl hx
            · exact absurd hcan hread
            · exact Or.inr hr

/-- The loop over the followers of the child: those that are not marked are told. -/
theorem tellFollowers (child : ℕ) {folls : List VSEntityFollower} {x : VSData × List ℕ}
    (hlive : ∀ f ∈ folls, (d.subSession f.nodeSub).isSome) (h : Told d cmd x) :
    ∃ y, folls.foldlM (tellFollower cmd child) x = some y ∧ Told d cmd y ∧
      ∀ t, t ∈ y.2 ↔ t ∈ x.2 ∨ ∃ f ∈ folls, d.subSession f.nodeSub = some t := by
  induction folls generalizing x with
  | nil => exact ⟨x, rfl, h, by simp⟩
  | cons f rest ih =>
      obtain ⟨s, hs⟩ := Option.isSome_iff_exists.mp (hlive f (by simp))
      obtain ⟨sub, hsub, rfl⟩ := subSession_eq_some.mp hs
      have hlive' : ∀ f ∈ rest, (d.subSession f.nodeSub).isSome :=
        fun f' hf' => hlive f' (by simp [hf'])
      have hsub₁ : x.1.sub f.nodeSub = some sub := by rw [h.sub, hsub]
      by_cases hmem : sub.session ∈ x.2
      · obtain ⟨y, hloop, hy, hmarked⟩ := ih hlive' h
        refine ⟨y, foldlM_cons_eq_some.mpr ⟨x, ?_, hloop⟩, hy, fun t => ?_⟩
        · simp [tellFollower, hsub₁, hmem]
        · rw [hmarked t]
          simp only [List.mem_cons, exists_eq_or_imp, hs, Option.some.injEq]
          constructor
          · rintro (hx | hf)
            · exact Or.inl hx
            · exact Or.inr (Or.inr hf)
          · rintro (hx | rfl | hf)
            · exact Or.inl hx
            · exact Or.inl hmem
            · exact Or.inr hf
      · obtain ⟨d₁, hpush, htold⟩ := h.tell hsub hmem child child
        obtain ⟨y, hloop, hy, hmarked⟩ := ih hlive' htold
        refine ⟨y, foldlM_cons_eq_some.mpr ⟨(d₁, sub.session :: x.2), ?_, hloop⟩, hy, fun t => ?_⟩
        · simp [tellFollower, hsub₁, hmem, hpush]
        · rw [hmarked t]
          simp only [List.mem_cons, exists_eq_or_imp, hs, Option.some.injEq]
          constructor
          · rintro ((rfl | hx) | hf)
            · exact Or.inr (Or.inl rfl)
            · exact Or.inl hx
            · exact Or.inr (Or.inr hf)
          · rintro (hx | rfl | hf)
            · exact Or.inl (Or.inr hx)
            · exact Or.inl (Or.inl rfl)
            · exact Or.inr hf

/-- The loop over the followers reads the records of all of them. -/
theorem folls_live_of_tellFollowers {folls : List VSEntityFollower} {x y : VSData × List ℕ}
    (h : Told d cmd x) (hloop : folls.foldlM (tellFollower cmd child) x = some y) :
    ∀ f ∈ folls, (d.sub f.nodeSub).isSome := by
  intro f hf
  have hround := foldlM_round (R := fun x y : VSData × List ℕ => y.1.sub = x.1.sub)
    (fun _ => rfl) (fun h₁ h₂ => h₂.trans h₁) (fun u f u' _ _ hbody => by
      obtain ⟨sub, -, hbody⟩ := Option.bind_eq_some_iff.mp hbody
      split at hbody
      · obtain rfl := Option.some.inj hbody
        rfl
      · obtain ⟨d₁, hd₁, hbody⟩ := Option.bind_eq_some_iff.mp hbody
        obtain rfl := Option.some.inj hbody
        obtain ⟨sub, -, rfl⟩ := push_eq_some.mp hd₁
        rfl) hloop hf
  obtain ⟨u, u', hu, hbody⟩ := hround
  obtain ⟨sub, hsub, -⟩ := Option.bind_eq_some_iff.mp hbody
  rw [hu, h.sub] at hsub
  simp [hsub]

/-! ## The clients that are sent the child -/

/-- The records of the clients that are sent the child: they are not marked, and can read the new
parent. -/
def isIntroduced (d : VSData) (told : List ℕ) (pnode : VSNode) (r : ℕ) : Bool :=
  (d.subSession r).any fun s => decide (s ∉ told) && d.vsNodeCanRead s pnode

/-- The command was sent to the clients with the records `added`, which follow the child now. -/
structure Introduced (d : VSData) (child : ℕ) (e : VSEntity) (cmd : OutCmd) (added : List ℕ)
    (d' : VSData) : Prop where
  kept : d' = { d with
    pushed := d'.pushed
    entity := Function.update d.entity child
      (some { e with folls := e.folls ++ added.map fun r => ⟨r, .creating⟩ }) }
  sent : ∃ new, d'.pushed = d.pushed ++ new ∧
    new.map (fun p => some p.session) = added.map d.subSession ∧ ∀ p ∈ new, p.cmd = cmd

theorem Introduced.refl {e : VSEntity} (he : d.entity child = some e) (cmd : OutCmd) :
    Introduced d child e cmd [] d := by
  refine ⟨?_, [], by simp, by simp, by simp⟩
  simp [← he]

theorem findFollower_of_others {session : ℕ → Option ℕ} {s : ℕ} {asked : EntityState → Bool}
    {folls : List VSEntityFollower}
    (h : ∀ f ∈ folls, ∃ u, session f.nodeSub = some u ∧ u ≠ s) :
    findFollower session s asked folls = some false := by
  induction folls with
  | nil => rfl
  | cons f rest ih =>
      obtain ⟨u, hu, hne⟩ := h f (by simp)
      rw [findFollower, hu]
      simp only [hne, false_and, if_false]
      exact ih fun f' hf' => h f' (by simp [hf'])

/-- `vs_node_send_create` for a client that does not follow the child. -/
theorem Introduced.sendCreate {e : VSEntity} {added : List ℕ} {pnode cnode : VSNode}
    {sub : VSNodeSubscriber}
    (h : Introduced d child e (.nodeCreate cnode.id pnode.id (d.userId cnode.owner)
      cnode.customType) added d')
    (hcnode : d.node child = some cnode) (hpnode : d.node parent = some pnode)
    (hparent : d.parentNode cnode = some parent) (hcreated : e.state.isCreated)
    (hsub : d.sub r = some sub)
    (hfolls : ∀ f ∈ e.folls, ∃ u, d.subSession f.nodeSub = some u ∧ u ≠ sub.session)
    (hadded : ∀ r' ∈ added, ∃ u, d.subSession r' = some u ∧ u ≠ sub.session) :
    ∃ d'', d'.vsNodeSendCreate r child none parent = some d'' ∧
      Introduced d child e (.nodeCreate cnode.id pnode.id (d.userId cnode.owner)
        cnode.customType) (added ++ [r]) d'' := by
  obtain ⟨new, hpushed, hsessions, hcmd⟩ := h.sent
  generalize hcmd₀ : OutCmd.nodeCreate cnode.id pnode.id (d.userId cnode.owner) cnode.customType
    = cmd at h hcmd ⊢
  have hfound : findFollower d.subSession sub.session EntityState.isCreated
      (e.folls ++ added.map fun r => ⟨r, .creating⟩) = some false := by
    apply findFollower_of_others
    intro f hf
    rcases List.mem_append.mp hf with hf | hf
    · exact hfolls f hf
    · obtain ⟨r', hr', rfl⟩ := List.mem_map.mp hf
      exact hadded r' hr'
  have hentity : d'.entity child =
      some { e with folls := e.folls ++ added.map fun r => ⟨r, .creating⟩ } := by
    rw [h.kept]
    exact Function.update_self _ _ _
  have hsub' : d'.sub r = some sub := by
    rw [h.kept]
    exact hsub
  have hsession : d'.subSession = d.subSession := by rw [h.kept]; rfl
  have hsend : d'.vsNodeSendCreate r child none parent =
      some (({ d' with pushed := d'.pushed ++
        [⟨sub.session, sub.prio, cmd, child, parent⟩] } : VSData).setEntity child
          (some (VSEntity.addFollower
            { e with folls := e.folls ++ added.map fun r => ⟨r, .creating⟩ } r))) := by
    have hnode : d'.node child = some cnode := by
      rw [h.kept]
      exact hcnode
    have hpnode' : d'.node parent = some pnode := by
      rw [h.kept]
      exact hpnode
    have hparent' : d'.parentNode cnode = some parent := by
      rw [h.kept]
      exact hparent
    have huser : d'.userId cnode.owner = d.userId cnode.owner := by
      rw [h.kept]
      rfl
    simp only [vsNodeSendCreate, hnode, hparent', hpnode', huser, hcmd₀, VSData.sendCreate, hsub',
      hentity, hcreated, hsession, hfound, Option.bind_eq_bind, Option.bind_some, if_true, push,
      Option.map_some]
    rfl
  refine ⟨_, hsend, ?_, new ++ [⟨sub.session, sub.prio, cmd, child, parent⟩], ?_, ?_, fun p hp => ?_⟩
  · conv_lhs => rw [h.kept]
    simp [setEntity, VSEntity.addFollower]
  · simp [setEntity, hpushed]
  · simp [hsessions, subSession_of_sub hsub]
  · rcases List.mem_append.mp hp with hp | hp
    · exact hcmd p hp
    · rw [List.mem_singleton.mp hp]

/-- The loop over the subscribers of the new parent: those that can read it and are not marked are
sent the child. -/
theorem introduceAll (subs : List ℕ) {e : VSEntity} {told added : List ℕ} {pnode cnode : VSNode}
    (h : Introduced d child e (.nodeCreate cnode.id pnode.id (d.userId cnode.owner)
      cnode.customType) added d')
    (hcnode : d.node child = some cnode) (hpnode : d.node parent = some pnode)
    (hparent : d.parentNode cnode = some parent) (hcreated : e.state.isCreated)
    (hfolls : ∀ f ∈ e.folls, ∃ u ∈ told, d.subSession f.nodeSub = some u)
    (hlive : ∀ r ∈ added ++ subs, (d.subSession r).isSome)
    (honce : ((added ++ subs).map d.subSession).Nodup) :
    ∃ d'', subs.foldlM (introduce pnode told parent child) d' = some d'' ∧
      Introduced d child e (.nodeCreate cnode.id pnode.id (d.userId cnode.owner)
        cnode.customType) (added ++ subs.filter (d.isIntroduced told pnode)) d'' := by
  induction subs generalizing d' added with
  | nil => exact ⟨d', rfl, by simpa using h⟩
  | cons r rest ih =>
      obtain ⟨s, hs⟩ := Option.isSome_iff_exists.mp (hlive r (by simp))
      obtain ⟨sub, hsub, rfl⟩ := subSession_eq_some.mp hs
      have hsub' : d'.sub r = some sub := by
        rw [h.kept]
        exact hsub
      have hread : d'.vsNodeCanRead sub.session pnode = d.vsNodeCanRead sub.session pnode := by
        rw [h.kept]
        rfl
      by_cases hintro : sub.session ∉ told ∧ d.vsNodeCanRead sub.session pnode
      · have hselected : d.isIntroduced told pnode r = true := by
          simpa [isIntroduced, hs] using hintro
        -- the sessions of the followers are marked, and those added are other sessions
        have hothers : ∀ f ∈ e.folls, ∃ u, d.subSession f.nodeSub = some u ∧ u ≠ sub.session := by
          intro f hf
          obtain ⟨u, hu, hfu⟩ := hfolls f hf
          refine ⟨u, hfu, ?_⟩
          rintro rfl
          exact hintro.1 hu
        have hadded : ∀ r' ∈ added, ∃ u, d.subSession r' = some u ∧ u ≠ sub.session := by
          intro r' hr'
          obtain ⟨u, hu⟩ := Option.isSome_iff_exists.mp (hlive r' (by simp [hr']))
          refine ⟨u, hu, ?_⟩
          rintro rfl
          rw [List.map_append, List.nodup_append] at honce
          exact honce.2.2 _ (List.mem_map_of_mem hr') _ (List.mem_map_of_mem (List.mem_cons_self ..))
            (hu.trans hs.symm)
        obtain ⟨d₁, hsend, h₁⟩ :=
          h.sendCreate hcnode hpnode hparent hcreated hsub hothers hadded
        have hround : introduce pnode told parent child d' r = some d₁ := by
          simp only [introduce, hsub', hread, Option.bind_eq_bind, Option.bind_some]
          rw [if_pos hintro, hsend]
        obtain ⟨d₂, hloop, h₂⟩ := ih h₁ (by simpa using hlive) (by simpa using honce)
        refine ⟨d₂, foldlM_cons_eq_some.mpr ⟨d₁, hround, hloop⟩, ?_⟩
        rw [List.filter_cons_of_pos hselected]
        simpa using h₂
      · have hselected : ¬ d.isIntroduced told pnode r = true := by
          simpa [isIntroduced, hs] using hintro
        have hround : introduce pnode told parent child d' r = some d' := by
          simp only [introduce, hsub', hread, Option.bind_eq_bind, Option.bind_some]
          rw [if_neg hintro]
          rfl
        have hsubset : (added ++ rest).Sublist (added ++ r :: rest) :=
          (List.Sublist.refl added).append (List.sublist_cons_self r rest)
        obtain ⟨d₂, hloop, h₂⟩ := ih h (fun r' hr' => hlive r' (hsubset.subset hr'))
          (honce.sublist (hsubset.map _))
        refine ⟨d₂, foldlM_cons_eq_some.mpr ⟨d', hround, hloop⟩, ?_⟩
        rw [List.filter_cons_of_neg hselected]
        exact h₂

/-! ## The end of a move -/

/-- What the three loops send, when the records of the followers are in memory. -/
theorem sendLinkChange_notices (h : Subscribed d) {onode pnode cnode : VSNode} {e : VSEntity}
    (honode : d.node old = some onode) (hpnode : d.node parent = some pnode)
    (hcnode : d.node child = some cnode) (he : d.entity child = some e)
    (hcreated : e.state.isCreated) (hparent : d.parentNode cnode = some parent)
    (hlive : ∀ f ∈ e.folls, (d.sub f.nodeSub).isSome) :
    ∃ (d' : VSData) (told : List ℕ) (new : List Push),
      d.sendLinkChange old parent child = some d' ∧ d'.pushed = d.pushed ++ new ∧
      (new.map Push.session).Nodup ∧ (∀ t, t ∈ told ↔ d.Reads old t ∨ d.Follows child t) ∧
      (∀ t ∈ told, ∃ p ∈ new, p.session = t ∧ p.cmd = .nodeLink pnode.id cnode.id) ∧
      ∀ t, t ∉ told → d.Reads parent t →
        (∃ p ∈ new, p.session = t ∧
          p.cmd = .nodeCreate cnode.id pnode.id (d.userId cnode.owner) cnode.customType) ∧
        d'.Follows child t := by
  have hfolls : ∀ f ∈ e.folls, (d.subSession f.nodeSub).isSome := by
    intro f hf
    rw [subSession, Option.isSome_map]
    exact hlive f hf
  -- the subscribers of the old parent, and the followers
  obtain ⟨x, hx, htoldx, hmarkedx⟩ := tellReaders onode child
    (fun r hr => h.live old onode r honode hr) (h.once old onode honode)
    (Told.refl d (.nodeLink pnode.id cnode.id)) (by simp)
  obtain ⟨y, hy, htoldy, hmarkedy⟩ := tellFollowers child hfolls htoldx
  obtain ⟨new₁, hpushed₁, hsessions₁, hcmd₁⟩ := htoldy.sent
  have hmarked : ∀ t, t ∈ y.2 ↔ d.Reads old t ∨ d.Follows child t := by
    intro t
    have hreads : d.Reads old t ↔
        ∃ r ∈ onode.nodeSubs, d.subSession r = some t ∧ d.vsNodeCanRead t onode := by
      simp [Reads, honode]
    have hfollows : d.Follows child t ↔ ∃ f ∈ e.folls, d.subSession f.nodeSub = some t := by
      simp [Follows, he, mem_followers]
    rw [hmarkedy t, hmarkedx t, hreads, hfollows]
    simp
  -- the subscribers of the new parent
  have hnode₁ : y.1.node = d.node := by rw [htoldy.kept]
  have hentity₁ : y.1.entity = d.entity := by rw [htoldy.kept]
  have hsession₁ : y.1.subSession = d.subSession := by rw [htoldy.kept]; rfl
  have hparent₁ : y.1.parentNode cnode = some parent := by rw [htoldy.kept]; exact hparent
  have huser₁ : y.1.userId = d.userId := by rw [htoldy.kept]; rfl
  have hmarkedFolls : ∀ f ∈ e.folls, ∃ u ∈ y.2, y.1.subSession f.nodeSub = some u := by
    intro f hf
    obtain ⟨u, hu⟩ := Option.isSome_iff_exists.mp (hfolls f hf)
    exact ⟨u, (hmarkedy u).mpr (Or.inr ⟨f, hf, hu⟩), by rw [hsession₁, hu]⟩
  obtain ⟨d', hd', hintro⟩ := introduceAll pnode.nodeSubs
    (Introduced.refl (by rw [hentity₁, he]) _) (by rw [hnode₁, hcnode]) (by rw [hnode₁, hpnode])
    hparent₁ hcreated hmarkedFolls
    (fun r hr => by rw [hsession₁]; exact h.live parent pnode r hpnode hr)
    (by rw [hsession₁]; exact h.once parent pnode hpnode)
  obtain ⟨new₂, hpushed₂, hsessions₂, hcmd₂⟩ := hintro.sent
  rw [List.nil_append] at hsessions₂
  have hunmarked : ∀ t, t ∈ new₂.map Push.session → t ∉ y.2 := by
    intro t ht
    have hmem : some t ∈ new₂.map fun p => some p.session := by
      obtain ⟨p, hp, rfl⟩ := List.mem_map.mp ht
      exact List.mem_map_of_mem (f := fun p : Push => some p.session) hp
    rw [hsessions₂] at hmem
    obtain ⟨r, hr, hrt⟩ := List.mem_map.mp hmem
    have hselected := (List.mem_filter.mp hr).2
    simp only [isIntroduced, hrt, Option.any_some, Bool.and_eq_true, decide_eq_true_eq] at hselected
    exact hselected.1
  refine ⟨d', y.2, new₁ ++ new₂, ?_, ?_, ?_, hmarked, fun t ht => ?_, fun t ht hreads => ?_⟩
  · exact sendLinkChange_rounds.mpr
      ⟨onode, pnode, cnode, e, x, y, honode, hpnode, hcnode, he, hx, hy, hd'⟩
  · rw [hpushed₂, hpushed₁, List.append_assoc]
  · rw [List.map_append, hsessions₁, List.nodup_append]
    refine ⟨List.nodup_reverse.mpr htoldy.once, ?_, fun t ht u hu htu => ?_⟩
    · have honce : (new₂.map fun p => some p.session).Nodup := by
        rw [hsessions₂, hsession₁]
        exact (h.once parent pnode hpnode).sublist (List.filter_sublist.map _)
      have hsome : ((new₂.map Push.session).map some).Nodup := by
        rw [List.map_map]
        exact honce
      exact List.Nodup.of_map _ hsome
    · subst htu
      exact hunmarked t hu (List.mem_reverse.mp ht)
  · rw [← List.mem_reverse, ← hsessions₁] at ht
    obtain ⟨p, hp, rfl⟩ := List.mem_map.mp ht
    exact ⟨p, List.mem_append_left _ hp, rfl, hcmd₁ p hp⟩
  · obtain ⟨pnode', r, hpnode', hr, hrt, hcan⟩ := hreads
    obtain rfl := Option.some.inj (hpnode.symm.trans hpnode')
    have hselected : r ∈ pnode.nodeSubs.filter (y.1.isIntroduced y.2 pnode) := by
      refine List.mem_filter.mpr ⟨hr, ?_⟩
      simp [isIntroduced, hsession₁, hrt, ht, htoldy.canRead, hcan]
    constructor
    · have hmem : some t ∈ new₂.map fun p => some p.session := by
        rw [hsessions₂, hsession₁, ← hrt]
        exact List.mem_map_of_mem hselected
      obtain ⟨p, hp, hpt⟩ := List.mem_map.mp hmem
      exact ⟨p, List.mem_append_right _ hp, Option.some.inj hpt, by rw [hcmd₂ p hp, huser₁]⟩
    · have hsession' : d'.subSession = d.subSession := by
        rw [hintro.kept, ← hsession₁]
        rfl
      refine ⟨_, by rw [hintro.kept]; exact Function.update_self _ _ _, mem_followers.mpr
        ⟨⟨r, .creating⟩, ?_, by rw [hsession', hrt]⟩⟩
      simp only [List.nil_append, List.mem_append, List.mem_map]
      exact Or.inr ⟨r, hselected, rfl⟩

/-- The end of a move informs every client once exactly when the records of the followers are in
memory, and no client that can read both parents does not follow the child. -/
theorem sendLinkChange_informs_iff (h : Subscribed d) {onode pnode cnode : VSNode} {e : VSEntity}
    (honode : d.node old = some onode) (hpnode : d.node parent = some pnode)
    (hcnode : d.node child = some cnode) (he : d.entity child = some e)
    (hcreated : e.state.isCreated) (hparent : d.parentNode cnode = some parent) :
    (∃ d', d.sendLinkChange old parent child = some d' ∧ d.InformsOnce parent child d') ↔
      (∀ f ∈ e.folls, (d.sub f.nodeSub).isSome) ∧
        ∀ t, d.Reads old t → d.Reads parent t → d.Follows child t := by
  constructor
  · rintro ⟨d', hsend, hinforms⟩
    have hlive : ∀ f ∈ e.folls, (d.sub f.nodeSub).isSome := by
      obtain ⟨onode', pnode', cnode', e', x, y, honode', -, -, he', hx, hy, -⟩ :=
        sendLinkChange_rounds.mp hsend
      obtain rfl := Option.some.inj (honode.symm.trans honode')
      obtain rfl := Option.some.inj (he.symm.trans he')
      obtain ⟨x', hx', htold, -⟩ := tellReaders onode child
        (fun r hr => h.live old onode r honode hr) (h.once old onode honode)
        (Told.refl d (.nodeLink pnode'.id cnode'.id)) (by simp)
      obtain rfl := Option.some.inj (hx'.symm.trans hx)
      exact folls_live_of_tellFollowers htold hy
    refine ⟨hlive, fun t hold hnew => ?_⟩
    by_contra hnot
    obtain ⟨d'', told, new, hsend', hpushed, honce, hmarked, hlinks, -⟩ :=
      sendLinkChange_notices h honode hpnode hcnode he hcreated hparent hlive
    obtain rfl := Option.some.inj (hsend.symm.trans hsend')
    obtain ⟨pnode', cnode', new', -, -, hpushed', -, -, hcreates⟩ := hinforms
    obtain rfl := List.append_cancel_left (hpushed.symm.trans hpushed')
    -- the client is sent the link, so that the child would be a second command
    obtain ⟨p, hp, hpt, hplink⟩ := hlinks t ((hmarked t).mpr (Or.inl hold))
    obtain ⟨⟨q, hq, hqt, hqcreate⟩, -⟩ := hcreates t hnot hnew
    have hpq : p = q := List.inj_on_of_nodup_map honce hp hq (hpt.trans hqt.symm)
    rw [hpq, hqcreate] at hplink
    cases hplink
  · rintro ⟨hlive, hfollows⟩
    obtain ⟨d', told, new, hsend, hpushed, honce, hmarked, hlinks, hcreates⟩ :=
      sendLinkChange_notices h honode hpnode hcnode he hcreated hparent hlive
    refine ⟨d', hsend, pnode, cnode, new, hpnode, hcnode, hpushed, honce, fun t ht => ?_,
      fun t hnot hreads => ?_⟩
    · exact hlinks t ((hmarked t).mpr (Or.inr ht))
    · refine hcreates t (fun hmem => ?_) hreads
      rcases (hmarked t).mp hmem with hold | hfollow
      · exact hnot (hfollows t hold hreads)
      · exact hnot hfollow

/-! ## Moves -/

theorem Relinked.kept {l : ℕ} (h : Relinked d l old parent child d') :
    d' = { d with node := d'.node, link := d'.link } := by
  obtain ⟨onode, d₁, pnode, d₂, -, rfl, -, rfl, hlevels⟩ := h
  rw [hlevels.kept]
  rfl

/-- Who reads a node does not depend on the tree. -/
theorem Relinked.reads {l : ℕ} (hne : parent ≠ old) (h : Relinked d l old parent child d') :
    d'.Reads n t ↔ d.Reads n t := by
  obtain ⟨-, -, hold, hnew⟩ := h.tree hne
  have hsession : d'.subSession = d.subSession := by
    rw [h.kept]
    rfl
  have hcan : ∀ node childrenLinks level,
      d'.vsNodeCanRead t { node with childrenLinks, level } = d.vsNodeCanRead t node := by
    intro node childrenLinks level
    rw [h.kept]
    rfl
  constructor
  · rintro ⟨node', r, hnode', hr, hrt, hread⟩
    obtain ⟨node, hnode, hrehung⟩ := hold n node' hnode'
    obtain ⟨level, hsame⟩ := hrehung.others
    rw [hsame] at hr hread
    rw [hcan] at hread
    exact ⟨node, r, hnode, hr, hsession ▸ hrt, hread⟩
  · rintro ⟨node, r, hnode, hr, hrt, hread⟩
    obtain ⟨node', hnode', hrehung⟩ := hnew n node hnode
    obtain ⟨level, hsame⟩ := hrehung.others
    rw [hsame] at hnode'
    exact ⟨_, r, hnode', hr, by rw [hsession, hrt], by rw [hcan, hread]⟩

theorem Relinked.follows {l : ℕ} (h : Relinked d l old parent child d') :
    d'.Follows a t ↔ d.Follows a t := by
  rw [h.kept]
  rfl

theorem Relinked.informsOnce {l : ℕ} {d'' : VSData} (hne : parent ≠ old)
    (h : Relinked d l old parent child d') :
    d'.InformsOnce parent child d'' ↔ d.InformsOnce parent child d'' := by
  obtain ⟨-, -, hold, hnew⟩ := h.tree hne
  have hpushed : d'.pushed = d.pushed := by rw [h.kept]
  have huser : d'.userId = d.userId := by
    rw [h.kept]
    rfl
  -- the commands name what moving leaves alone
  have hnames : ∀ {m node' level} {node : VSNode}, node' = { node with
      childrenLinks := m, level := level } →
      node'.id = node.id ∧ node'.owner = node.owner ∧ node'.customType = node.customType := by
    rintro m node' level node rfl
    exact ⟨rfl, rfl, rfl⟩
  constructor
  · rintro ⟨pnode', cnode', new, hpnode', hcnode', hnew', honce, hlinks, hcreates⟩
    obtain ⟨pnode, hpnode, hprehung⟩ := hold parent pnode' hpnode'
    obtain ⟨cnode, hcnode, hcrehung⟩ := hold child cnode' hcnode'
    obtain ⟨hpid, -, -⟩ := hnames hprehung.others.choose_spec
    obtain ⟨hcid, hcowner, hctype⟩ := hnames hcrehung.others.choose_spec
    simp only [hpushed, hpid, hcid, hcowner, hctype, huser, h.follows, h.reads hne]
      at hnew' hlinks hcreates
    exact ⟨pnode, cnode, new, hpnode, hcnode, hnew', honce, hlinks, hcreates⟩
  · rintro ⟨pnode, cnode, new, hpnode, hcnode, hnew', honce, hlinks, hcreates⟩
    obtain ⟨pnode', hpnode', hprehung⟩ := hnew parent pnode hpnode
    obtain ⟨cnode', hcnode', hcrehung⟩ := hnew child cnode hcnode
    obtain ⟨hpid, -, -⟩ := hnames hprehung.others.choose_spec
    obtain ⟨hcid, hcowner, hctype⟩ := hnames hcrehung.others.choose_spec
    refine ⟨pnode', cnode', new, hpnode', hcnode', ?_, honce, ?_, ?_⟩
    · rw [hpushed, hnew']
    · simpa only [hpid, hcid, h.follows] using hlinks
    · simpa only [hpid, hcid, hcowner, hctype, huser, h.follows, h.reads hne] using hcreates

theorem vsHandleLinkChange_of_passed {s parentId childId l : ℕ}
    (hchild : d.vsNodeFind childId = some child)
    (htests : d.linkChangeTests s child parentId = some (some (l, old, parent))) :
    d.vsHandleLinkChange s parentId childId =
      (d.moveLink l old parent child).bind fun d₁ => d₁.sendLinkChange old parent child := by
  simp only [vsHandleLinkChange, hchild, htests, Option.bind_eq_bind, Option.bind_some]

/-- **Who is told about a move.**  In every state of a run, and for every `Node_Link` that passes
the tests: every client is informed once exactly when the new parent does not stand below the
child, the records of the followers of the child are in memory, and every client that can read
both parents follows the child. -/
theorem move_informs_once_iff {users : List VSUser} {superUser otherUsers : ℕ}
    {realname : ℕ → List UInt8} {d₀ : VSData}
    (hinit : vsNodesInit users superUser otherUsers realname = some d₀) {events : List NodeEvent}
    (hrun : run step d₀ events = some d) {s parentId childId l : ℕ}
    (hchild : d.vsNodeFind childId = some child)
    (htests : d.linkChangeTests s child parentId = some (some (l, old, parent))) :
    (∃ d', d.vsHandleLinkChange s parentId childId = some d' ∧ d.InformsOnce parent child d') ↔
      ¬ d.UpTo parent child ∧
      (∀ e, d.entity child = some e → ∀ f ∈ e.folls, (d.sub f.nodeSub).isSome) ∧
      ∀ t, d.Reads old t → d.Reads parent t → d.Follows child t := by
  obtain ⟨hfresh, hsubscribed⟩ := run_subscribed hinit hrun
  have hrooted := run_rooted hinit hrun
  have hmovable := linkChangeTests_movable htests
  obtain ⟨cnode, -, -, pnode, hcnode, hcreated, -, hcl, -, -, -, -, hpnode, -, hne, -⟩ :=
    linkChangeTests_passed htests
  have hreturns := hrooted.moveLink_returns_iff hfresh.node hmovable (by simp [hpnode])
  rw [vsHandleLinkChange_of_passed hchild htests, ← hreturns]
  cases hmove : d.moveLink l old parent child with
  | none => simp
  | some d₁ =>
      have hrelinked := moveLink_cases hmove
      have hsubscribed₁ := (Effect.move htests hmove).subscribed hfresh (by simp) (by simp)
        hsubscribed
      obtain ⟨hlinks, ⟨onode, pnode', honode, hpnode'⟩, -, hnew⟩ := Relinked.tree hne hrelinked
      obtain ⟨onode₁, honode₁, -⟩ := hnew old onode honode
      obtain ⟨pnode₁, hpnode₁, -⟩ := hnew parent pnode hpnode
      obtain ⟨cnode₁, hcnode₁, hrehung⟩ := hnew child cnode hcnode
      obtain ⟨e, he, hstate⟩ : ∃ e, d.entity child = some e ∧ e.state.isCreated := by
        simpa [isCreated, Option.any_eq_true] using hcreated
      have he₁ : d₁.entity child = some e := by
        rw [Relinked.kept hrelinked, he]
      have hparent₁ : d₁.parentNode cnode₁ = some parent := by
        simp [parentNode, hrehung.parentLink, hcl, hlinks]
      have hsub₁ : d₁.sub = d.sub := by rw [Relinked.kept hrelinked]
      have hend := sendLinkChange_informs_iff hsubscribed₁ honode₁ hpnode₁ hcnode₁ he₁ hstate
        hparent₁
      simp only [Relinked.informsOnce hne hrelinked, Relinked.reads hne hrelinked,
        Relinked.follows hrelinked, hsub₁] at hend
      simp only [Option.bind_some, hend, he, Option.some.injEq, forall_eq', exists_eq', true_and]

/-- A client is subscribed to two nodes and follows the children of the first. -/
def followingEvents : List NodeEvent :=
  [.login 0 10 10 1001 false sampleInfo, .login 1 10 10 1002 false sampleInfo,
    .command 0 (.nodeCreate 10 1001 65537 0xFFFFFFFF 40),
    .command 0 (.nodeCreate 10 1001 65537 0xFFFFFFFF 40),
    .command 1 (.nodeSubscribe 65537), .command 1 (.nodeSubscribe 65542)]

/-- It is informed once when one of them is moved below the second. -/
theorem move_informs_once_sample :
    ∃ d₀ d d', sampleInit = some d₀ ∧ run step d₀ followingEvents = some d ∧
      d.vsHandleLinkChange 0 65542 65541 = some d' ∧ d.InformsOnce 41 39 d' := by
  have hrun : (sampleInit.bind fun d₀ => (run step d₀ followingEvents).map fun d =>
      decide (d.vsNodeFind 65541 = some 39 ∧
        d.linkChangeTests 0 39 65542 = some (some (40, 25, 41)) ∧
        d.climbAvoids 39 9 41 = some true ∧
        ((d.entity 39).all fun e => e.folls.all fun f => (d.sub f.nodeSub).isSome) = true ∧
        ((d.node 25).map fun node => node.nodeSubs.map d.subSession) = some [some 1] ∧
        d.Follows 39 1)) = some true := by decide +kernel
  obtain ⟨d₀, hinit, hrun⟩ := Option.bind_eq_some_iff.mp hrun
  obtain ⟨d, hrun, hfacts⟩ := Option.map_eq_some_iff.mp hrun
  obtain ⟨hchild, htests, hclimb, hlive, hsubs, hfollows⟩ := of_decide_eq_true hfacts
  have hreaders : ∀ t, d.Reads 25 t → t = 1 := by
    rintro t ⟨node, r, hnode, hr, hrt, -⟩
    rw [hnode, Option.map_some, Option.some.injEq] at hsubs
    have hmem : d.subSession r ∈ node.nodeSubs.map d.subSession := List.mem_map_of_mem hr
    rw [hsubs, hrt] at hmem
    exact Option.some.inj (List.mem_singleton.mp hmem)
  obtain ⟨d', hmove, hinforms⟩ := (move_informs_once_iff hinit hrun hchild htests).mpr
    ⟨climbAvoids_sound hclimb, fun e he f hf => by
      rw [he, Option.all_some, List.all_eq_true] at hlive
      exact hlive f hf, fun t hold _ => by
      rw [hreaders t hold]
      exact hfollows⟩
  exact ⟨d₀, d, d', hinit, hrun, hmove, hinforms⟩

/-- A client moves a node, which another client does not follow, below a node that this client is
given afterwards. -/
def givenEvents : List NodeEvent :=
  [.login 0 10 10 1001 false sampleInfo, .login 1 10 10 1002 false sampleInfo,
    .command 0 (.nodeCreate 10 1001 65537 0xFFFFFFFF 40),
    .command 0 (.nodeCreate 10 1001 65537 0xFFFFFFFF 40),
    .command 0 (.nodeCreate 10 1001 65537 0xFFFFFFFF 40),
    .command 0 (.nodePerm 1001 3 65541), .command 0 (.nodePerm 65535 0 65541),
    .command 1 (.nodeSubscribe 65541), .command 1 (.nodeSubscribe 65543),
    .command 0 (.nodeLink 65541 65542), .command 0 (.nodeOwner 1002 65541)]

/-- When the node is moved on, below a node the other client is subscribed to, the other client is
sent a link of a node that it was never sent, and nothing else. -/
theorem link_of_unknown_node :
    ∃ d₀ d d', sampleInit = some d₀ ∧ run step d₀ givenEvents = some d ∧
      d.linkChangeTests 0 41 65543 = some (some (42, 39, 43)) ∧
      d.vsHandleLinkChange 0 65543 65542 = some d' ∧ ¬ d.Follows 41 1 ∧ d.Reads 43 1 ∧
      d'.pushed = d.pushed ++ [⟨1, 128, .nodeLink 65543 65542, 41, 41⟩] ∧
      ¬ d'.Follows 41 1 ∧ ¬ d.InformsOnce 43 41 d' := by
  have hrun : (sampleInit.bind fun d₀ => (run step d₀ givenEvents).bind fun d =>
      (d.vsHandleLinkChange 0 65543 65542).map fun d' =>
        (d.linkChangeTests 0 41 65543, decide (d.Follows 41 1), decide (d.Reads 43 1),
          decide (d'.pushed = d.pushed ++ [⟨1, 128, .nodeLink 65543 65542, 41, 41⟩]),
          decide (d'.Follows 41 1))) =
      some (some (some (42, 39, 43)), false, true, true, false) := by decide +kernel
  obtain ⟨d₀, hinit, hrun⟩ := Option.bind_eq_some_iff.mp hrun
  obtain ⟨d, hrun, hmove⟩ := Option.bind_eq_some_iff.mp hrun
  obtain ⟨d', hmove, hfacts⟩ := Option.map_eq_some_iff.mp hmove
  simp only [Prod.mk.injEq, decide_eq_false_iff_not, decide_eq_true_eq] at hfacts
  obtain ⟨htests, hfollows, hreads, hpushed, hfollows'⟩ := hfacts
  refine ⟨d₀, d, d', hinit, hrun, htests, hmove, hfollows, hreads, hpushed, hfollows', ?_⟩
  rintro ⟨pnode, cnode, new, -, -, hnew, -, -, hcreates⟩
  exact hfollows' (hcreates 1 hfollows hreads).2

end VSData

end Verse
