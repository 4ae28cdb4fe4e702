import Verse.History.AckNak
import Verse.Queues.OutQueueSpec
import Verse.Resend.PacketHistorySpec

/-!
# What the sender does with ACK and NAK commands

`handle_ack_nak_commands` of `v_resend_mechanism.c`.  An acknowledged packet is
removed from the history.  The commands of a lost packet that are not obsolete go
back to the heads of their priority queues, the last one first, unless the queue
has a newer version of them; what is left of the packet is then removed as if it
had been acknowledged.
-/

namespace Verse

open Lib

/-- What the sender uses of `VSession` and `VDgramConn`. -/
structure VSender where
  outQueue : VOutQueue
  history : VPacketHistory
  sentSize : ℕ

/-- The loop over the commands of a lost packet, which stands at position `i`; it
goes from the last one to the first, and so is the list given. -/
def resendCmds (outQueue : VOutQueue) (history : VPacketHistory) (i : ℕ) :
    List ℕ → Option (VOutQueue × VPacketHistory)
  | [] => some (outQueue, history)
  | sa :: rest =>
      match history.sheap sa with
      | none => none
      | some sentCmd =>
          match sentCmd.vbucket with
          | none => resendCmds outQueue history i rest
          | some a =>
              match history.table.heap a with
              | none => none
              | some b =>
                  match vOutQueuePushHead outQueue sentCmd.prio b.data with
                  | none => none
                  | some (outQueue, false, _) => resendCmds outQueue history i rest
                  | some (outQueue, true, _) =>
                      match vCmdQueueCreate b.data.id false with
                      | none => none
                      | some q =>
                          match vHashArrayRemoveItem history.table q b.data.cmd with
                          | none => none
                          | some (table, _) =>
                              resendCmds outQueue
                                { history with
                                  table := table
                                  sheap := Function.update history.sheap sa none
                                  packets := history.packets.modify i fun packet =>
                                    { packet with cmds := packet.cmds.erase sa } } i rest

/-- A packet was acknowledged.  The result also has the commands that were
destroyed. -/
def handleAck (s : VSender) (id : ℕ) : Option (VSender × List CmdPtr) :=
  (vPacketHistoryRemPacket s.history s.sentSize id).map fun (history, sentSize, cmds) =>
    ({ s with history := history, sentSize := sentSize }, cmds)

/-- A packet was lost. -/
def handleNak (s : VSender) (id : ℕ) : Option (VSender × List CmdPtr) :=
  match vPacketHistoryFindPacket s.history id with
  | none => some (s, [])
  | some i =>
      match s.history.packets[i]? with
      | none => none
      | some packet =>
          match resendCmds s.outQueue s.history i packet.cmds.reverse with
          | none => none
          | some (outQueue, history) =>
              handleAck { s with outQueue := outQueue, history := history } id

/-- One packet of the ranges that the commands stand for. -/
def handleMark (s : VSender) : AckNakCmd → Option (VSender × List CmdPtr)
  | (.ack, id) => handleAck s id
  | (.nak, id) => handleNak s id

/-! ## The newer version in the queue -/

variable {oq : VOutQueue} {history : VPacketHistory} {active : Set ℕ} {sa a : ℕ}
  {sentCmd : VSentCommand} {b : VBucket} {q : VCommandQueue}

/-- A command has no newer version in the queue exactly if it could be pushed
without replacing anything. -/
theorem VOutQueue.Inv.twin_eq_none_iff (h : oq.Inv none) {cmd : CmdPtr} (hacc : Accepted cmd) :
    oq.twin cmd = none ↔ ∀ p, ∀ c ∈ oq.contents p, ¬ Replaces cmd c := by
  obtain ⟨q, hq, hkeyed⟩ := hacc
  have hlist := vHashArrayFindItem_eq h.wf cmd.cmd hq hkeyed
  constructor
  · rintro htwin p c hc ⟨q', hq', hdups, hid, hkey⟩
    rw [hq] at hq'
    obtain rfl := Option.some.inj hq'
    obtain ⟨qa, hqa, hcmdAt⟩ := List.mem_filterMap.mp hc
    obtain ⟨-, queueCmd, hqc, -⟩ := (h.queued p qa).mp hqa
    obtain ⟨b, hb, hdata⟩ := h.cmdAt_eq (by simp) hqc
    rw [hdata] at hcmdAt
    obtain rfl := Option.some.inj hcmdAt
    cases hfind : (oq.table.lb cmd.cmd.id.toNat).find? (oq.table.hasKey q cmd.cmd) with
    | none =>
        have hmem : queueCmd.vbucket ∈ oq.table.lb cmd.cmd.id.toNat :=
          (h.wf.mem_lb _ _).mpr ⟨b, hb, hid⟩
        have hno := List.find?_eq_none.mp hfind _ hmem
        simp [CmdTable.hasKey, hb, hkey] at hno
    | some a =>
        rw [hfind] at hlist
        obtain ⟨-, qa', -, -, -, -, -, -, htwin', -⟩ := h.twin_of_find hq hkeyed hdups hlist
        rw [htwin] at htwin'
        cases htwin'
  · intro hall
    by_cases hdups : q.removeHashDups = true
    · cases hfind : (oq.table.lb cmd.cmd.id.toNat).find? (oq.table.hasKey q cmd.cmd) with
      | none =>
          rw [hfind] at hlist
          simp [VOutQueue.twin, hq, hdups, hlist]
      | some a =>
          rw [hfind] at hlist
          obtain ⟨b, qa, queueCmd, hb, hptr, hqc, hbucket, hrep, -, -⟩ :=
            h.twin_of_find hq hkeyed hdups hlist
          have hmem := h.mem_queue (by simp) hqc
          have hcmdAt : oq.cmdAt qa = some b.data := by simp [VOutQueue.cmdAt, hqc, hbucket, hb]
          exact absurd hrep (hall _ _ (List.mem_filterMap.mpr ⟨qa, hmem, hcmdAt⟩))
    · simp [VOutQueue.twin, hq, hdups]

/-- The newer version stands in the queue. -/
theorem VOutQueue.Inv.mem_of_twin (h : oq.Inv none) {cmd : CmdPtr} (hacc : Accepted cmd) {qa : ℕ}
    (htwin : oq.twin cmd = some qa) :
    ∃ o p, oq.cmdAt qa = some o ∧ o ∈ oq.contents p ∧ Replaces cmd o := by
  obtain ⟨q, hq, hkeyed⟩ := hacc
  have hdups : q.removeHashDups = true := by
    by_contra hdups
    simp [VOutQueue.twin, hq, hdups] at htwin
  have hlist := vHashArrayFindItem_eq h.wf cmd.cmd hq hkeyed
  cases hfind : (oq.table.lb cmd.cmd.id.toNat).find? (oq.table.hasKey q cmd.cmd) with
  | none =>
      rw [hfind] at hlist
      simp [VOutQueue.twin, hq, hlist] at htwin
  | some a =>
      rw [hfind] at hlist
      obtain ⟨b, qa', queueCmd, hb, hptr, hqc, hbucket, hrep, htwin', -⟩ :=
        h.twin_of_find hq hkeyed hdups hlist
      rw [htwin] at htwin'
      obtain rfl := Option.some.inj htwin'
      have hmem := h.mem_queue (by simp) hqc
      have hcmdAt : oq.cmdAt qa = some b.data := by simp [VOutQueue.cmdAt, hqc, hbucket, hb]
      exact ⟨b.data, _, hcmdAt, List.mem_filterMap.mpr ⟨qa, hmem, hcmdAt⟩, hrep⟩

/-- A command that is pushed to the head and replaces nothing. -/
theorem VOutQueue.Inv.contents_pushHead {oq' : VOutQueue} (h : oq.Inv none) {cmd : CmdPtr}
    {prio : ℕ} (htwin : oq.twin cmd = none)
    (hqueues : oq'.queues = Function.update oq.queues prio (oq.next :: oq.queues prio))
    (hcmdAt : oq'.cmdAt = Function.update oq.cmdAt oq.next (some cmd)) :
    oq'.contents = Function.update oq.contents prio (cmd :: oq.contents prio) := by
  have heffect : PushEffect oq oq' true prio cmd true none :=
    PushEffect.added htwin hqueues hcmdAt
  cases heffect.change h with
  | added hc => exact hc

/-- Commands of the history may also stand in the queue. -/
theorem vCmdQueueCreate_true {id : ℕ} (hq : vCmdQueueCreate id false = some q) :
    minCmdId ≤ id ∧ vCmdQueueCreate id true = some q := by
  unfold vCmdQueueCreate at hq ⊢
  split at hq
  · rename_i hid
    exact ⟨hid, by rw [if_pos hid, hq]⟩
  · simp [vFakeCmdQueueCreate] at hq

/-- Two versions of one command are not both in the history. -/
theorem VPacketHistory.Inv.not_replaces (h : history.Inv active) {x : ℕ} {c d : CmdPtr}
    (hsa : sa ∈ active) (hx : x ∈ active) (hne : x ≠ sa) (hc : history.cmdAt sa = some c)
    (hd : history.cmdAt x = some d) : ¬ Replaces d c := by
  rintro ⟨q, hq, hdups, hid, hkey⟩
  obtain ⟨sc, hsc, hsc'⟩ := Option.bind_eq_some_iff.mp hc
  obtain ⟨a, ha, hbc⟩ := Option.bind_eq_some_iff.mp hsc'
  obtain ⟨b, hb, rfl⟩ := Option.map_eq_some_iff.mp hbc
  obtain ⟨sc', hsc', hscx⟩ := Option.bind_eq_some_iff.mp hd
  obtain ⟨a', ha', hbx⟩ := Option.bind_eq_some_iff.mp hscx
  obtain ⟨b', hb', rfl⟩ := Option.map_eq_some_iff.mp hbx
  obtain ⟨q', hq', -⟩ := h.keyed a' b' hb'
  have hq'' := (vCmdQueueCreate_true hq').2
  rw [hq] at hq''
  obtain rfl := Option.some.inj hq''
  have heq := h.unique a a' b b' q hb hb' hid (hid ▸ hq') hdups hkey
  exact h.bucket_ne hsa hsc ha hx hne hsc' ha' heq.symm

/-! ## Putting the commands of a lost packet back -/

/-- The sent command is not obsolete, and the queue has no newer version of it. -/
def goesBack (oq : VOutQueue) (history : VPacketHistory) (sa : ℕ) : Bool :=
  match history.cmdAt sa with
  | none => false
  | some cmd => (oq.twin cmd).isNone

/-- The sent commands that go back to the queue of priority `p`. -/
def backTo (oq : VOutQueue) (history : VPacketHistory) (p : ℕ) (cmds : List ℕ) : List ℕ :=
  cmds.filter fun sa => goesBack oq history sa && decide (history.prioAt sa = some p)

/-- What the loop over the commands of a lost packet does: the commands that go
back stand at the heads of the queues in their old order, and the history is as
before without them. -/
structure Resent (oq oq' : VOutQueue) (history history' : VPacketHistory) (active : Set ℕ)
    (i : ℕ) (cmds : List ℕ) : Prop where
  queue : oq'.Inv none
  contents : ∀ p, oq'.contents p =
    (backTo oq history p cmds).reverse.filterMap history.cmdAt ++ oq.contents p
  inv : history'.Inv (active \ {sa | sa ∈ cmds ∧ goesBack oq history sa = true})
  packets : history'.packets = history.packets.modify i fun packet =>
    { packet with cmds := (cmds.filter (goesBack oq history)).foldl List.erase packet.cmds }
  frame : ∀ x ∈ active, (x ∉ cmds ∨ goesBack oq history x = false) →
    history'.cmdAt x = history.cmdAt x ∧ history'.prioAt x = history.prioAt x

/-- A command at the head of a queue does not change which others go back. -/
theorem goesBack_congr {oq' : VOutQueue} {history' : VPacketHistory} {x : ℕ}
    (hcmdAt : history'.cmdAt x = history.cmdAt x)
    (htwin : ∀ cmd, history.cmdAt x = some cmd → (oq'.twin cmd = none ↔ oq.twin cmd = none)) :
    goesBack oq' history' x = goesBack oq history x := by
  unfold goesBack
  rw [hcmdAt]
  cases hc : history.cmdAt x with
  | none => rfl
  | some cmd =>
      have := htwin cmd hc
      cases h₁ : oq'.twin cmd with
      | none => simp [this.mp h₁, h₁]
      | some qa =>
          cases h₂ : oq.twin cmd with
          | none =>
              rw [this.mpr h₂] at h₁
              cases h₁
          | some qa' => simp [h₁, h₂]

theorem VPacketHistory.Inv.accepted (h : history.Inv active) {cmd : CmdPtr}
    (hcmd : history.cmdAt sa = some cmd) : Accepted cmd := by
  obtain ⟨sc, hsc, hsc'⟩ := Option.bind_eq_some_iff.mp hcmd
  obtain ⟨a, ha, hbc⟩ := Option.bind_eq_some_iff.mp hsc'
  obtain ⟨b, hb, rfl⟩ := Option.map_eq_some_iff.mp hbc
  obtain ⟨q, hq, hkeyed⟩ := h.keyed a b hb
  exact ⟨q, (vCmdQueueCreate_true hq).2, hkeyed⟩

/-- A command that stays in the history changes nothing. -/
theorem Resent.stay {oq' : VOutQueue} {history' : VPacketHistory} {i : ℕ} {rest : List ℕ}
    (h : Resent oq oq' history history' active i rest) (hstay : goesBack oq history sa = false) :
    Resent oq oq' history history' active i (sa :: rest) where
  queue := h.queue
  contents p := by
    rw [h.contents p]
    simp [backTo, hstay]
  inv := by
    have hset : {x | x ∈ sa :: rest ∧ goesBack oq history x = true} =
        {x | x ∈ rest ∧ goesBack oq history x = true} := by
      ext x
      simp only [Set.mem_ofPred_eq, List.mem_cons]
      constructor
      · rintro ⟨rfl | hx, hback⟩
        · rw [hstay] at hback
          cases hback
        · exact ⟨hx, hback⟩
      · rintro ⟨hx, hback⟩
        exact ⟨Or.inr hx, hback⟩
    rw [hset]
    exact h.inv
  packets := by
    rw [h.packets, List.filter_cons_of_neg (by simp [hstay])]
  frame x hx hor := by
    refine h.frame x hx ?_
    rcases hor with hnot | hback
    · exact Or.inl fun hmem => hnot (List.mem_cons_of_mem _ hmem)
    · exact Or.inr hback

/-- A command is taken out of the history and stands at the head of its queue. -/
theorem Resent.back {oq₁ oq' : VOutQueue} {history₁ history' : VPacketHistory} {i prio : ℕ}
    {rest : List ℕ} {cmd : CmdPtr} (h : Resent oq₁ oq' history₁ history' (active \ {sa}) i rest)
    (hback : goesBack oq history sa = true) (hcmd : history.cmdAt sa = some cmd)
    (hprio : history.prioAt sa = some prio)
    (hcontents : oq₁.contents = Function.update oq.contents prio (cmd :: oq.contents prio))
    (hpackets : history₁.packets = history.packets.modify i fun packet =>
      { packet with cmds := packet.cmds.erase sa })
    (hframe : ∀ x ∈ active, x ≠ sa →
      history₁.cmdAt x = history.cmdAt x ∧ history₁.prioAt x = history.prioAt x)
    (hrest : ∀ x ∈ rest, x ∈ active ∧ x ≠ sa)
    (hgoes : ∀ x ∈ rest, goesBack oq₁ history₁ x = goesBack oq history x) :
    Resent oq oq' history history' active i (sa :: rest) where
  queue := h.queue
  contents p := by
    have hbackTo : backTo oq₁ history₁ p rest = backTo oq history p rest := by
      apply List.filter_congr
      intro x hx
      rw [hgoes x hx, (hframe x (hrest x hx).1 (hrest x hx).2).2]
    have hmap : (backTo oq history p rest).reverse.filterMap history₁.cmdAt =
        (backTo oq history p rest).reverse.filterMap history.cmdAt := by
      apply List.filterMap_congr
      intro x hx
      have hx' := hrest x (List.mem_of_mem_filter (List.mem_reverse.mp hx))
      exact (hframe x hx'.1 hx'.2).1
    rw [h.contents p, hbackTo, hmap, hcontents]
    by_cases hp : p = prio
    · subst hp
      have hcons : backTo oq history p (sa :: rest) = sa :: backTo oq history p rest := by
        simp [backTo, hback, hprio]
      rw [hcons, Function.update_self, List.reverse_cons, List.filterMap_append,
        List.filterMap_cons_some hcmd, List.filterMap_nil, List.append_assoc]
      rfl
    · have hcons : backTo oq history p (sa :: rest) = backTo oq history p rest := by
        simp [backTo, hback, hprio, Ne.symm hp]
      rw [hcons, Function.update_of_ne hp]
  inv := by
    have hset : (active \ {sa}) \ {x | x ∈ rest ∧ goesBack oq₁ history₁ x = true} =
        active \ {x | x ∈ sa :: rest ∧ goesBack oq history x = true} := by
      ext x
      simp only [Set.mem_sdiff, Set.mem_singleton_iff, Set.mem_ofPred_eq, List.mem_cons]
      constructor
      · rintro ⟨⟨hx, hne⟩, hnot⟩
        refine ⟨hx, ?_⟩
        rintro ⟨rfl | hmem, hgo⟩
        · exact hne rfl
        · exact hnot ⟨hmem, (hgoes x hmem).trans hgo⟩
      · rintro ⟨hx, hnot⟩
        refine ⟨⟨hx, ?_⟩, ?_⟩
        · rintro rfl
          exact hnot ⟨Or.inl rfl, hback⟩
        · rintro ⟨hmem, hgo⟩
          exact hnot ⟨Or.inr hmem, (hgoes x hmem).symm.trans hgo⟩
    rw [← hset]
    exact h.inv
  packets := by
    have hfilter : rest.filter (goesBack oq₁ history₁) = rest.filter (goesBack oq history) :=
      List.filter_congr hgoes
    rw [h.packets, hpackets, List.modify_modify_eq, List.filter_cons_of_pos hback, hfilter]
    rfl
  frame x hx hor := by
    have hne : x ≠ sa := by
      rintro rfl
      rcases hor with hnot | hstay
      · exact hnot (by simp)
      · rw [hback] at hstay
        cases hstay
    obtain ⟨hcmdAt, hprioAt⟩ := hframe x hx hne
    rw [← hcmdAt, ← hprioAt]
    refine h.frame x ⟨hx, hne⟩ ?_
    by_cases hmem : x ∈ rest
    · rcases hor with hnot | hstay
      · exact absurd (List.mem_cons_of_mem _ hmem) hnot
      · exact Or.inr ((hgoes x hmem).trans hstay)
    · exact Or.inl hmem

/-- **The loop over the commands of a lost packet.** -/
theorem resendCmds_spec (hoq : oq.Inv none) (h : history.Inv active) (i : ℕ) {cmds : List ℕ}
    (hcmds : ∀ sa ∈ cmds, sa ∈ active) (hnodup : cmds.Nodup) (hsafe : history.Removable cmds) :
    ∃ oq' history', resendCmds oq history i cmds = some (oq', history') ∧
      Resent oq oq' history history' active i cmds := by
  induction cmds generalizing oq history active with
  | nil =>
      refine ⟨oq, history, rfl, hoq, by simp [backTo], ?_, ?_, fun _ _ _ => ⟨rfl, rfl⟩⟩
      · have hset : active \ {sa | sa ∈ ([] : List ℕ) ∧ goesBack oq history sa = true} =
            active := by
          ext x
          simp
        rw [hset]
        exact h
      · exact (List.modify_id i history.packets).symm
  | cons sa rest ih =>
      obtain ⟨hnot, hnodup'⟩ := List.nodup_cons.mp hnodup
      have hsa := hcmds sa (by simp)
      have hrest : ∀ x ∈ rest, x ∈ active ∧ x ≠ sa := fun x hx =>
        ⟨hcmds x (by simp [hx]), fun heq => hnot (heq ▸ hx)⟩
      obtain ⟨sentCmd, hsc⟩ := h.stored sa hsa
      cases ha : sentCmd.vbucket with
      | none =>
          obtain ⟨oq', history', hres, hresent⟩ := ih hoq h (fun x hx => (hrest x hx).1) hnodup'
            (fun before x after hsplit => (hsafe.tail before x after hsplit).keep h
              (hrest x (by simp [hsplit])).1 (hrest x (by simp [hsplit])).2 hsc (by simp [ha]))
          refine ⟨oq', history', by simp only [resendCmds, hsc, ha, hres], hresent.stay ?_⟩
          simp [goesBack, VPacketHistory.cmdAt_of_obsolete hsc ha]
      | some a =>
          obtain ⟨b, hb, -, -⟩ := h.bucket sa hsa sentCmd a hsc ha
          obtain ⟨q, hq, hkeyed⟩ := h.keyed a b hb
          have hcmd := VPacketHistory.cmdAt_of_bucket hsc ha hb
          have hacc : Accepted b.data := h.accepted hcmd
          rcases vOutQueuePushHead_spec hoq hacc sentCmd.prio with
            ⟨qa, htwin, hpush⟩ | ⟨oq₁, htwin, hpush, hoq₁, hqueues₁, hcmdAt₁⟩
          · -- there is a newer version, so commands of this id may be replaced
            have hdup : ∀ a' b' q', sentCmd.vbucket = some a' → history.table.heap a' = some b' →
                vCmdQueueCreate b'.data.id false = some q' → q'.removeHashDups = true := by
              intro a' b' q' ha' hb' hq'
              rw [ha] at ha'
              obtain rfl := Option.some.inj ha'
              rw [hb] at hb'
              obtain rfl := Option.some.inj hb'
              by_contra hdups
              simp [VOutQueue.twin, (vCmdQueueCreate_true hq').2, hdups] at htwin
            obtain ⟨oq', history', hres, hresent⟩ := ih hoq h (fun x hx => (hrest x hx).1) hnodup'
              (fun before x after hsplit => (hsafe.tail before x after hsplit).keep h
                (hrest x (by simp [hsplit])).1 (hrest x (by simp [hsplit])).2 hsc hdup)
            refine ⟨oq', history', by simp only [resendCmds, hsc, ha, hb, hpush, hres],
              hresent.stay ?_⟩
            simp [goesBack, hcmd, htwin]
          · have hremove := hsafe.head h hsc ha hb hq hkeyed
            let history₁ : VPacketHistory :=
              { history with
                table := history.table.removed q b.data.cmd a
                sheap := Function.update history.sheap sa none
                packets := history.packets.modify i fun packet =>
                  { packet with cmds := packet.cmds.erase sa } }
            have hsheap : ∀ x, x ≠ sa → history₁.sheap x = history.sheap x := fun x hx =>
              Function.update_of_ne hx _ _
            have hinv₁ : history₁.Inv (active \ {sa}) := by
              refine (h.drop hsa hsc ha hb hq).frame _ (fun x hx => hsheap x hx.2) ?_
              intro c hc
              by_cases hcs : c = sa
              · simp [hcs]
              · exact (Function.update_of_ne hcs _ _).trans (h.fresh c hc)
            have hframe : ∀ x ∈ active, x ≠ sa →
                history₁.cmdAt x = history.cmdAt x ∧ history₁.prioAt x = history.prioAt x := by
              intro x hx hne
              constructor
              · rw [← h.cmdAt_drop (q := q) hsa hsc ha b.data.cmd hx hne, VPacketHistory.cmdAt,
                  hsheap x hne]
                rfl
              · rw [VPacketHistory.prioAt, hsheap x hne]
                rfl
            have hsafe₁ : history₁.Removable rest := by
              intro before x after hsplit
              obtain ⟨hx, hne⟩ := hrest x (by simp [hsplit])
              have hdrop := (hsafe.tail before x after hsplit).drop (q := q) h hsa hsc ha hb hx hne
              intro sc' a' b' q' hsc' ha' hb' hq'
              exact hdrop sc' a' b' q' ((hsheap x hne).symm.trans hsc') ha' hb' hq'
            have hcontents := hoq.contents_pushHead htwin hqueues₁ hcmdAt₁
            have hgoes : ∀ x ∈ rest, goesBack oq₁ history₁ x = goesBack oq history x := by
              intro x hx
              obtain ⟨hxa, hne⟩ := hrest x hx
              refine goesBack_congr (hframe x hxa hne).1 ?_
              intro cmd hcmdx
              have haccx := h.accepted hcmdx
              rw [hoq₁.twin_eq_none_iff haccx, hoq.twin_eq_none_iff haccx, hcontents]
              constructor
              · intro hall p c hc
                refine hall p c ?_
                by_cases hp : p = sentCmd.prio
                · subst hp
                  simp [hc]
                · simpa [hp] using hc
              · intro hall p c hc
                by_cases hp : p = sentCmd.prio
                · subst hp
                  rw [Function.update_self, List.mem_cons] at hc
                  rcases hc with rfl | hc
                  · exact h.not_replaces hsa hxa hne hcmd hcmdx
                  · exact hall _ c hc
                · rw [Function.update_of_ne hp] at hc
                  exact hall p c hc
            obtain ⟨oq', history', hres, hresent⟩ := ih hoq₁ hinv₁
              (fun x hx => ⟨(hrest x hx).1, (hrest x hx).2⟩) hnodup' hsafe₁
            refine ⟨oq', history', ?_, hresent.back ?_ hcmd ?_ hcontents rfl hframe hrest hgoes⟩
            · simp only [resendCmds, hsc, ha, hb, hpush, hq, hremove]
              exact hres
            · simp [goesBack, hcmd, htwin]
            · simp [VPacketHistory.prioAt, hsc]

/-! ## One packet -/

/-- The commands of a lost packet that go back. -/
def backCmds (oq : VOutQueue) (history : VPacketHistory) (cmds : List ℕ) : List CmdPtr :=
  (cmds.filter (goesBack oq history)).filterMap history.cmdAt

/-- The commands of a lost packet that have a newer version in the queue. -/
def staleCmds (oq : VOutQueue) (history : VPacketHistory) (cmds : List ℕ) : List CmdPtr :=
  (cmds.filter (!goesBack oq history ·)).filterMap history.cmdAt

theorem findPacket_congr {history' : VPacketHistory}
    (hids : history'.packets.map (·.id) = history.packets.map (·.id)) (id : ℕ) :
    vPacketHistoryFindPacket history' id = vPacketHistoryFindPacket history id := by
  have hmap : ∀ h : VPacketHistory, vPacketHistoryFindPacket h id =
      (h.packets.map (·.id)).findIdx? fun i => i = id := by
    intro h
    rw [List.findIdx?_map]
    rfl
  rw [hmap, hmap, hids]

/-- What is left of a lost packet can be removed: each command that is not obsolete
is the only version of its key. -/
theorem removable_stale {history' : VPacketHistory} {active' : Set ℕ}
    (h' : history'.Inv active') {cmds : List ℕ} (hcmds : ∀ x ∈ cmds, x ∈ active')
    (hnodup : cmds.Nodup)
    (hstale : ∀ x ∈ cmds, history'.cmdAt x = history.cmdAt x ∧ goesBack oq history x = false) :
    history'.Removable cmds := by
  intro before sa after hsplit
  have hmem : sa ∈ cmds := by simp [hsplit]
  refine h'.ownFirst_of_dup (hcmds sa hmem) ?_ ?_
  · intro hbefore
    rw [hsplit] at hnodup
    exact (List.nodup_append.mp hnodup).2.2 sa hbefore sa (by simp) rfl
  · intro sc a b q hsc ha hb hq
    have hcmd := VPacketHistory.cmdAt_of_bucket hsc ha hb
    obtain ⟨hcmdAt, hgoes⟩ := hstale sa hmem
    rw [hcmd] at hcmdAt
    simp only [goesBack, ← hcmdAt] at hgoes
    by_contra hdups
    simp [VOutQueue.twin, (vCmdQueueCreate_true hq).2, hdups] at hgoes

theorem modify_length {α : Type*} (before after : List α) (x : α) (f : α → α) :
    (before ++ x :: after).modify before.length f = before ++ f x :: after := by
  induction before with
  | nil => rfl
  | cons _ rest ih => simpa using ih

/-- The list of the packet after the commands that go back were freed. -/
theorem foldl_erase_filter {l : List ℕ} (hnodup : l.Nodup) (f : ℕ → Bool) :
    (l.reverse.filter f).foldl List.erase l = l.filter (!f ·) := by
  rw [← List.diff_eq_foldl, hnodup.sdiff_eq_filter]
  apply List.filter_congr
  intro x hx
  simp [hx]

/-- What is left of the sender when a packet was lost: the commands that go back
stand at the heads of their queues in the order in which they were sent, and the
packet is gone. -/
structure Lost (s s' : VSender) (before after : List VSentPacket) (packet : VSentPacket) :
    Prop where
  queue : s'.outQueue.Inv none
  sound : s'.history.Sound
  packets : s'.history.packets = before ++ after
  contents : ∀ p, s'.outQueue.contents p =
    (backTo s.outQueue s.history p packet.cmds).filterMap s.history.cmdAt ++
      s.outQueue.contents p
  frame : ∀ x ∈ s'.history.sent, x ∈ s.history.sent ∧ s'.history.cmdAt x = s.history.cmdAt x ∧
    s'.history.prioAt x = s.history.prioAt x
  size : s'.sentSize = takeOff s.sentSize (staleCmds s.outQueue s.history packet.cmds)
  live : (s'.history.live : Multiset CmdPtr) + (staleCmds s.outQueue s.history packet.cmds) +
    (backCmds s.outQueue s.history packet.cmds) = (s.history.live : Multiset CmdPtr)

/-- **A lost packet.** -/
theorem handleNak_spec {s : VSender} (hoq : s.outQueue.Inv none) (h : s.history.Sound) {id : ℕ}
    {before after : List VSentPacket} {packet : VSentPacket}
    (hfind : vPacketHistoryFindPacket s.history id = some before.length)
    (hsplit : s.history.packets = before ++ packet :: after)
    (hsafe : s.history.Removable packet.cmds.reverse) :
    ∃ s', handleNak s id = some (s', staleCmds s.outQueue s.history packet.cmds) ∧
      Lost s s' before after packet := by
  let goes := goesBack s.outQueue s.history
  have hsent : s.history.sent =
      before.flatMap (·.cmds) ++ (packet.cmds ++ after.flatMap (·.cmds)) := by
    simp [VPacketHistory.sent, hsplit]
  have hmem : ∀ x ∈ packet.cmds, x ∈ s.history.sent := fun x hx => by simp [hsent, hx]
  have hnodup : packet.cmds.Nodup := by
    have := h.nodup
    rw [hsent] at this
    exact (List.nodup_append.mp (List.nodup_append.mp this).2.1).1
  obtain ⟨oq', history₁, hres, hresent⟩ := resendCmds_spec hoq h.inv before.length
    (fun x hx => hmem x (List.mem_reverse.mp hx)) (List.nodup_reverse.mpr hnodup) hsafe
  -- the packet keeps the commands that stay
  have hpackets₁ : history₁.packets =
      before ++ { packet with cmds := packet.cmds.filter (!goes ·) } :: after := by
    rw [hresent.packets, hsplit, modify_length, foldl_erase_filter hnodup]
  have hsent₁ : history₁.sent =
      before.flatMap (·.cmds) ++ (packet.cmds.filter (!goes ·) ++ after.flatMap (·.cmds)) := by
    simp [VPacketHistory.sent, hpackets₁]
  have hperm : s.history.sent.Perm (history₁.sent ++ packet.cmds.filter goes) := by
    rw [hsent, hsent₁, List.append_assoc]
    apply List.Perm.append_left
    refine List.Perm.trans ?_ List.perm_append_comm
    rw [← List.append_assoc]
    exact (List.filter_append_perm goes packet.cmds).symm.append_right _
  have hnodup₁ := hperm.nodup_iff.mp h.nodup
  have hactive : {x | x ∈ history₁.sent} = {x | x ∈ s.history.sent} \
      {x | x ∈ packet.cmds.reverse ∧ goes x = true} := by
    ext x
    simp only [Set.mem_sdiff, Set.mem_ofPred_eq, List.mem_reverse]
    constructor
    · intro hx
      refine ⟨hperm.mem_iff.mpr (List.mem_append_left _ hx), ?_⟩
      rintro ⟨hxp, hgo⟩
      exact (List.nodup_append.mp hnodup₁).2.2 x hx x (List.mem_filter.mpr ⟨hxp, hgo⟩) rfl
    · rintro ⟨hx, hnot⟩
      rw [hperm.mem_iff, List.mem_append] at hx
      refine hx.resolve_right fun hgo => hnot ?_
      exact ⟨List.mem_of_mem_filter hgo, (List.mem_filter.mp hgo).2⟩
  have hsound₁ : history₁.Sound := ⟨hactive ▸ hresent.inv, (List.nodup_append.mp hnodup₁).1⟩
  have hframe₁ : ∀ x ∈ history₁.sent, history₁.cmdAt x = s.history.cmdAt x ∧
      history₁.prioAt x = s.history.prioAt x := by
    intro x hx
    have hx' : x ∈ {x | x ∈ history₁.sent} := hx
    rw [hactive] at hx'
    refine hresent.frame x hx'.1 ?_
    by_cases hxp : x ∈ packet.cmds.reverse
    · exact Or.inr (Bool.eq_false_iff.mpr fun hgo => hx'.2 ⟨hxp, hgo⟩)
    · exact Or.inl hxp
  have hstay : ∀ x ∈ packet.cmds.filter (!goes ·), x ∈ history₁.sent ∧ goes x = false := by
    intro x hx
    exact ⟨by simp [hsent₁, hx], by simpa using (List.mem_filter.mp hx).2⟩
  have hsafe₁ : history₁.Removable (packet.cmds.filter (!goes ·)) :=
    removable_stale hsound₁.inv (fun x hx => (hstay x hx).1) (hnodup.filter _)
      fun x hx => ⟨(hframe₁ x (hstay x hx).1).1, (hstay x hx).2⟩
  have hfind₁ : vPacketHistoryFindPacket history₁ id = some before.length := by
    rw [← hfind]
    apply findPacket_congr
    simp [hpackets₁, hsplit]
  obtain ⟨history', hrem, hsound', hpackets', hframe', hlive'⟩ :=
    vPacketHistoryRemPacket_spec hsound₁ s.sentSize hfind₁ hpackets₁ hsafe₁
  have hstale : (packet.cmds.filter (!goes ·)).filterMap history₁.cmdAt =
      staleCmds s.outQueue s.history packet.cmds :=
    List.filterMap_congr fun x hx => (hframe₁ x (hstay x hx).1).1
  simp only [hstale] at hrem hlive'
  have hsub : ∀ x ∈ history'.sent, x ∈ history₁.sent := by
    intro x hx
    rw [VPacketHistory.sent, hpackets', List.flatMap_append] at hx
    rw [hsent₁]
    rcases List.mem_append.mp hx with hx | hx
    · exact List.mem_append_left _ hx
    · exact List.mem_append_right _ (List.mem_append_right _ hx)
  have hget : s.history.packets[before.length]? = some packet := by simp [hsplit]
  refine ⟨⟨oq', history', takeOff s.sentSize (staleCmds s.outQueue s.history packet.cmds)⟩, ?_,
    hresent.queue, hsound', hpackets', ?_, ?_, rfl, ?_⟩
  · simp only [handleNak, hfind, hget, hres, handleAck, hrem, Option.map_some]
  · intro p
    have hbackTo : (backTo s.outQueue s.history p packet.cmds.reverse).reverse =
        backTo s.outQueue s.history p packet.cmds := by
      rw [backTo, List.filter_reverse, List.reverse_reverse]
      rfl
    rw [← hbackTo]
    exact hresent.contents p
  · intro x hx
    have hx₁ := hsub x hx
    have h₁ := hframe₁ x hx₁
    have h' := hframe' x hx
    exact ⟨hperm.mem_iff.mpr (List.mem_append_left _ hx₁), h'.1.trans h₁.1, h'.2.trans h₁.2⟩
  · have hlive₁ : history₁.live = history₁.sent.filterMap s.history.cmdAt :=
      List.filterMap_congr fun x hx => (hframe₁ x hx).1
    have hlive := hperm.filterMap s.history.cmdAt
    rw [List.filterMap_append] at hlive
    rw [hlive', hlive₁, Multiset.coe_add]
    exact (Multiset.coe_eq_coe.mpr hlive).symm

end Verse
