import Verse.Resend.SenderRun

/-!
# No command is lost or doubled

Every command that the queue accepted is at any time in exactly one of these
places: the queue, the list of one packet that is not acknowledged, with a bucket
that holds it, among the acknowledged commands, or among those that were replaced
by a newer version.  Fake commands are carried out when they are popped.

This holds as long as every command that is popped, acknowledged or put back finds
its own bucket first (`SenderRun.Safe`).
-/

namespace Verse

open Lib

/-- What has to hold before an action. -/
def SenderRun.Safe (r : SenderRun) : SenderAction → Prop
  | .pushTail _ prio cmd => r.s.outQueue.PushSafe prio.toNat ⟨r.clock, cmd.1⟩
  | .openPacket _ => True
  | .popAdd prio len => r.tot ≠ none → r.s.outQueue.PopSafe prio.toNat len.toNat
  | .popBack prio len => r.tot ≠ none → r.s.outQueue.PopSafe prio.toNat len.toNat
  | .closePacket => True
  | .sendFails => r.tot ≠ none → r.MarkSafe (.ack, r.s.history.lastId)
  | .ackNak cmds stale => r.tot = none →
      Admissible SenderRun.mark SenderRun.MarkSafe r (ackNakIds cmds stale)

/-- All places together. -/
def SenderRun.places (r : SenderRun) : Multiset CmdPtr :=
  total r.s.outQueue.contents + (r.s.history.live : Multiset CmdPtr) +
    (r.acked.map Prod.snd : Multiset CmdPtr) + (r.replaced.map Prod.fst : Multiset CmdPtr) +
    (r.consumed : Multiset CmdPtr)

/-- A live command of a packet was put there when it was sent. -/
def SenderRun.Carried (r : SenderRun) : Prop :=
  ∀ packet ∈ r.s.history.packets, ∀ x ∈ packet.cmds, ∀ c p, r.s.history.cmdAt x = some c →
    r.s.history.prioAt x = some p → (packet.id, p, c) ∈ r.carried

structure SenderRun.Inv (r : SenderRun) : Prop where
  base : r.Base
  mass : r.places + (r.lost : Multiset CmdPtr) = (r.pushed : Multiset CmdPtr)
  fresh : ∀ c ∈ r.pushed, c.addr < r.clock
  nodup : r.pushed.Nodup
  carriedBy : r.Carried
  ackedBy : ∀ t ∈ r.acked, t.1 ∈ r.acks ∧ ∃ p, (t.1, p, t.2) ∈ r.carried
  newer : ∀ t ∈ r.replaced, Replaces t.2 t.1 ∧ t.1.addr < t.2.addr
  fake : ∀ c ∈ r.consumed, c.id < minCmdId
  /-- A version in the queue is newer than one in the history. -/
  later : ∀ x ∈ r.s.history.live, ∀ p, ∀ y ∈ r.s.outQueue.contents p, Replaces y x →
    x.addr < y.addr
  /-- The queue has no two versions of a command. -/
  distinct : ∀ p p', ∀ y ∈ r.s.outQueue.contents p, ∀ z ∈ r.s.outQueue.contents p',
    Replaces z y → y = z

theorem Replaces.symm {c d : CmdPtr} (h : Replaces c d) : Replaces d c := by
  obtain ⟨q, hq, hdups, hid, hkey⟩ := h
  exact ⟨q, by rw [hid, hq], hdups, hid.symm, hkey.symm⟩

theorem Replaces.trans {c d e : CmdPtr} (h : Replaces c d) (h' : Replaces d e) : Replaces c e := by
  obtain ⟨q, hq, hdups, hid, hkey⟩ := h
  obtain ⟨q', hq', -, hid', hkey'⟩ := h'
  rw [hid, hq] at hq'
  obtain rfl := Option.some.inj hq'
  exact ⟨q, hq, hdups, hid'.trans hid, hkey'.trans hkey⟩

theorem SenderRun.inv_init : SenderRun.init.Inv where
  base := SenderRun.base_init
  mass := by
    have hempty : total SenderRun.init.s.outQueue.contents = 0 := total_nil fun _ => rfl
    rw [SenderRun.places, hempty]
    rfl
  fresh c hc := by cases hc
  nodup := List.nodup_nil
  carriedBy packet hpacket := by cases hpacket
  ackedBy t ht := by cases ht
  newer t ht := by cases ht
  fake c hc := by cases hc
  later x hx := by cases hx
  distinct p p' y hy := by cases hy

variable {r : SenderRun}

theorem mem_total {c : ℕ → List CmdPtr} {p : ℕ} {x : CmdPtr} (hp : p ≤ maxPriority)
    (hx : x ∈ c p) : x ∈ total c := by
  unfold total
  rw [Multiset.mem_sum]
  exact ⟨p, Finset.mem_range.mpr (Nat.lt_succ_of_le hp), Multiset.mem_coe.mpr hx⟩

theorem SenderRun.Base.prio_le (h : r.Base) {p : ℕ} {x : CmdPtr}
    (hx : x ∈ r.s.outQueue.contents p) : p ≤ maxPriority := by
  by_contra hlt
  rw [h.bound p (Nat.lt_of_not_le hlt)] at hx
  cases hx

theorem SenderRun.Inv.pushed_of_mem (h : r.Inv) {p : ℕ} {x : CmdPtr}
    (hx : x ∈ r.s.outQueue.contents p) : x ∈ r.pushed := by
  have htotal := mem_total (h.base.prio_le hx) hx
  have hmem : x ∈ r.places + (r.lost : Multiset CmdPtr) := by
    simp only [SenderRun.places, Multiset.mem_add]
    exact Or.inl (Or.inl (Or.inl (Or.inl (Or.inl htotal))))
  rw [h.mass, Multiset.mem_coe] at hmem
  exact hmem

theorem SenderRun.Inv.pushed_of_live (h : r.Inv) {x : CmdPtr} (hx : x ∈ r.s.history.live) :
    x ∈ r.pushed := by
  have hmem : x ∈ r.places + (r.lost : Multiset CmdPtr) := by
    simp only [SenderRun.places, Multiset.mem_add, Multiset.mem_coe]
    exact Or.inl (Or.inl (Or.inl (Or.inl (Or.inr hx))))
  rw [h.mass, Multiset.mem_coe] at hmem
  exact hmem

/-- The queue holds a command once. -/
theorem SenderRun.Inv.nodup_total (h : r.Inv) : (total r.s.outQueue.contents).Nodup := by
  have hnodup : (r.pushed : Multiset CmdPtr).Nodup := Multiset.coe_nodup.mpr h.nodup
  rw [← h.mass] at hnodup
  refine Multiset.nodup_of_le ?_ hnodup
  simp only [SenderRun.places, add_assoc]
  exact Multiset.le_add_right _ _

/-! ## Pushing -/

theorem map_fst_toList {c : CmdPtr} (old : Option CmdPtr) :
    ((old.map fun o => (o, c)).toList.map Prod.fst : List CmdPtr) = old.toList := by
  cases old <;> rfl

/-- **A push** puts a new command in the queue, perhaps in place of an older one. -/
theorem SenderRun.Inv.pushTail (h : r.Inv) (limits : Bool) {prio : ℕ} (hprio : prio ≤ maxPriority)
    {cmd : GenericCmd} (hacc : Accepted ⟨r.clock, cmd⟩)
    (hsafe : r.s.outQueue.PushSafe prio ⟨r.clock, cmd⟩) :
    ∃ r', r.pushTail limits prio cmd = some r' ∧ r'.Inv := by
  rcases vOutQueuePushTail_spec h.base.queue hacc limits hsafe with hres | ⟨oq', old, hres, hpush⟩
  · refine ⟨_, by simp only [SenderRun.pushTail, hres]; rfl, ?_⟩
    refine
      { base := h.base.of_eq rfl id, mass := ?_, fresh := ?_, nodup := h.nodup,
        carriedBy := h.carriedBy, ackedBy := h.ackedBy, newer := ?_, fake := h.fake,
        later := h.later, distinct := h.distinct }
    · have hmass := h.mass
      simp only [SenderRun.places] at hmass ⊢
      simpa using hmass
    · exact fun c hc => Nat.lt_succ_of_lt (h.fresh c hc)
    · simpa using h.newer
  · let new : CmdPtr := ⟨r.clock, cmd⟩
    have hmem := fun p x hx => hpush.change.mem (p := p) (x := x) hx
    have hnew : new ∉ r.pushed := fun hin => Nat.lt_irrefl _ (h.fresh new hin)
    have holdmem : ∀ o, old = some o → ∃ p, o ∈ r.s.outQueue.contents p := by
      intro o ho
      subst ho
      cases hpush.change with
      | moved p l₁ l₂ _ _ hp _ => exact ⟨p, by simp [hp]⟩
      | replaced l₁ l₂ _ hp _ => exact ⟨prio, by simp [hp]⟩
    refine ⟨_, by simp only [SenderRun.pushTail, hres]; rfl, ?_⟩
    refine
      { base := ?_, mass := ?_, fresh := ?_, nodup := ?_, carriedBy := h.carriedBy,
        ackedBy := h.ackedBy, newer := ?_, fake := h.fake, later := ?_, distinct := ?_ }
    · exact h.base.of_queue hpush.inv (hpush.change.bound hprio h.base.bound) rfl rfl
    · have htotal := hpush.change.total hprio h.base.bound
      have hmass := h.mass
      ext x
      have htotal' := congrArg (Multiset.count x) htotal
      have hmass' := congrArg (Multiset.count x) hmass
      simp only [SenderRun.places, Multiset.count_add, Multiset.count_cons] at htotal' hmass' ⊢
      simp only [List.map_append, map_fst_toList, ← Multiset.coe_add, Multiset.count_add,
        if_true, Multiset.coe_singleton, Multiset.count_singleton]
      omega
    · intro c hc
      simp only [if_true, List.mem_append, List.mem_singleton] at hc
      rcases hc with hc | rfl
      · exact Nat.lt_succ_of_lt (h.fresh c hc)
      · exact Nat.lt_succ_self _
    · simp only [if_true]
      exact List.nodup_append_comm.mp (List.nodup_cons.mpr ⟨hnew, h.nodup⟩)
    · intro t ht
      rcases List.mem_append.mp ht with ht | ht
      · exact h.newer t ht
      · cases old with
        | none => simp at ht
        | some o =>
            obtain rfl : t = (o, new) := by simpa using ht
            obtain ⟨p, hp⟩ := holdmem o rfl
            exact ⟨hpush.replaces o rfl, h.fresh o (h.pushed_of_mem hp)⟩
    · intro x hx p y hy hrep
      rcases hmem p y hy with ⟨rfl, -⟩ | hy
      · exact h.fresh x (h.pushed_of_live hx)
      · exact h.later x hx p y hy hrep
    · -- the older version is gone, and what is left differs from the new command
      have hgone : ∀ o, old = some o → ∀ p, o ∉ oq'.contents p := by
        intro o ho p hin
        obtain ⟨p₀, hp₀⟩ := holdmem o ho
        have hple : p ≤ maxPriority := by
          by_contra hlt
          rw [hpush.change.bound hprio h.base.bound p (Nat.lt_of_not_le hlt)] at hin
          cases hin
        have hone := Multiset.nodup_iff_count_le_one.mp h.nodup_total o
        have hpos := Multiset.count_pos.mpr (mem_total hple hin)
        have htotal := congrArg (Multiset.count o) (hpush.change.total hprio h.base.bound)
        have hne : o ≠ ⟨r.clock, cmd⟩ := by
          intro heq
          have hin' := h.pushed_of_mem hp₀
          rw [heq] at hin'
          exact hnew hin'
        simp only [ho, Option.toList_some, Multiset.coe_singleton, Multiset.count_add,
          Multiset.count_singleton_self, Multiset.count_cons_of_ne hne] at htotal
        omega
      have hother : ∀ p, ∀ z ∈ oq'.contents p, z ≠ new → ¬ Replaces new z := by
        intro p z hz hne hrep
        have hz' := (hmem p z hz).resolve_left fun heq => hne heq.1
        cases hold : old with
        | none => exact hpush.alone hold p z hz' hrep
        | some o =>
            obtain ⟨p₀, hp₀⟩ := holdmem o hold
            have hoz := (hpush.replaces o hold).symm.trans hrep
            have heq := h.distinct p p₀ z hz' o hp₀ hoz
            exact hgone o hold p (heq ▸ hz)
      intro p p' y hy z hz hrep
      by_cases hyn : y = new
      · by_cases hzn : z = new
        · rw [hyn, hzn]
        · exact absurd (hyn ▸ hrep).symm (hother p' z hz hzn)
      · by_cases hzn : z = new
        · exact absurd (hzn ▸ hrep) (hother p y hy hyn)
        · have hy' := (hmem p y hy).resolve_left fun heq => hyn heq.1
          have hz' := (hmem p' z hz).resolve_left fun heq => hzn heq.1
          exact h.distinct p p' y hy' z hz' hrep

/-! ## Popping -/

/-- A popped command is no longer in the queue. -/
theorem SenderRun.Inv.not_mem_popped (h : r.Inv) {oq' : VOutQueue} {prio : ℕ} {cmd : CmdPtr}
    (hpop : Popped r.s.outQueue oq' prio cmd) (p : ℕ) : cmd ∉ oq'.contents p := by
  intro hin
  have hprio : prio ≤ maxPriority := h.base.prio_le hpop.mem_head
  have hple : p ≤ maxPriority := h.base.prio_le (hpop.mem hin)
  have hnodup := h.nodup_total
  rw [total_pop hprio hpop.head hpop.rest, Multiset.nodup_cons] at hnodup
  exact hnodup.1 (mem_total hple hin)

/-- **A fake command** is carried out. -/
theorem SenderRun.Inv.consume (h : r.Inv) {oq' : VOutQueue} {prio : ℕ} {cmd : CmdPtr}
    (hpop : Popped r.s.outQueue oq' prio cmd) (hid : cmd.id < minCmdId) :
    SenderRun.Inv { r with
      s := { r.s with outQueue := oq' }
      consumed := r.consumed ++ [cmd] } := by
  have hprio : prio ≤ maxPriority := h.base.prio_le hpop.mem_head
  refine
    { base := h.base.of_queue hpop.inv (hpop.bound h.base.bound) rfl rfl, mass := ?_,
      fresh := h.fresh, nodup := h.nodup, carriedBy := h.carriedBy, ackedBy := h.ackedBy,
      newer := h.newer, fake := ?_, later := ?_, distinct := ?_ }
  · have htotal := total_pop hprio hpop.head hpop.rest
    rw [← h.mass]
    simp only [SenderRun.places, htotal, ← Multiset.coe_add, ← Multiset.singleton_add,
      Multiset.coe_singleton]
    ext x
    simp only [Multiset.count_add]
    omega
  · intro c hc
    rcases List.mem_append.mp hc with hc | hc
    · exact h.fake c hc
    · obtain rfl := List.mem_singleton.mp hc
      exact hid
  · exact fun x hx p y hy => h.later x hx p y (hpop.mem hy)
  · exact fun p p' y hy z hz => h.distinct p p' y (hpop.mem hy) z (hpop.mem hz)

theorem getLast?_split {α : Type*} {l : List α} (hne : l ≠ []) :
    ∃ before last, l = before ++ [last] ∧ l.length - 1 = before.length ∧
      l.getLast? = some last := by
  refine ⟨l.dropLast, l.getLast hne, (List.dropLast_append_getLast hne).symm, ?_, ?_⟩
  · rw [List.length_dropLast]
  · rw [List.getLast?_eq_some_getLast hne]

/-- **A command goes into the packet** and may make an older version obsolete. -/
theorem SenderRun.Inv.carry (h : r.Inv) {oq' : VOutQueue} (tot : ℕ) {prio : ℕ} {cmd : CmdPtr}
    (htot : r.tot ≠ none) (hpop : Popped r.s.outQueue oq' prio cmd) (hid : minCmdId ≤ cmd.id) :
    ∃ history old,
      vPacketHistoryAddCmd r.s.history (r.s.history.packets.length - 1) cmd prio =
        some (history, old) ∧
      SenderRun.Inv { r with
        s := { r.s with outQueue := oq', history := history }
        tot := some (addSize tot (vCmdSize cmd.cmd))
        carried := r.carried ++ [(r.s.history.lastId, prio, cmd)]
        replaced := r.replaced ++ (old.map (·, cmd)).toList } := by
  have hprio : prio ≤ maxPriority := h.base.prio_le hpop.mem_head
  have hne := h.base.building htot
  obtain ⟨before, last, hsplit, hlen, hlast⟩ := getLast?_split hne
  have hi : r.s.history.packets.length - 1 < r.s.history.packets.length :=
    Nat.sub_lt (List.length_pos_of_ne_nil hne) Nat.one_pos
  obtain ⟨history', old, hres, hsound, hpackets, hframe, hcmd, hprioAt, hlive, hrep⟩ :=
    vPacketHistoryAddCmd_spec h.base.history hi hid hpop.accepted prio
  refine ⟨history', old, hres, ?_⟩
  have hlive' : ∀ x ∈ history'.live, x = cmd ∨ x ∈ r.s.history.live := by
    intro x hx
    have hmem : x ∈ (history'.live : Multiset CmdPtr) + (old.toList : Multiset CmdPtr) :=
      Multiset.mem_add.mpr (Or.inl (Multiset.mem_coe.mpr hx))
    rw [hlive, Multiset.mem_cons, Multiset.mem_coe] at hmem
    exact hmem
  refine
    { base := ?_, mass := ?_, fresh := h.fresh, nodup := h.nodup, carriedBy := ?_, ackedBy := ?_,
      newer := ?_, fake := h.fake, later := ?_, distinct := ?_ }
  · exact h.base.added hne hpop hsound hpackets (fun x hx => (hframe x hx).2) hprioAt rfl rfl
  · have htotal := total_pop hprio hpop.head hpop.rest
    rw [← h.mass]
    ext x
    have hlive'' := congrArg (Multiset.count x) hlive
    have htotal' := congrArg (Multiset.count x) htotal
    simp only [SenderRun.places, List.map_append, map_fst_toList, ← Multiset.coe_add,
      Multiset.count_add, Multiset.count_cons] at hlive'' htotal' ⊢
    omega
  · intro packet hpacket x hx c p hc hp
    rw [hpackets, hsplit, List.length_append, List.length_singleton, Nat.add_sub_cancel,
      modify_length, List.mem_append, List.mem_singleton] at hpacket
    have hlastId : r.s.history.lastId = last.id := by simp [VPacketHistory.lastId, hlast]
    have hold : ∀ packet' ∈ r.s.history.packets, x ∈ packet'.cmds →
        (packet'.id, p, c) ∈ r.carried := by
      intro packet' hpacket' hx'
      have hxs : x ∈ r.s.history.sent := List.mem_flatMap.mpr ⟨packet', hpacket', hx'⟩
      obtain ⟨hcmdAt, hprio'⟩ := hframe x hxs
      rw [hc] at hcmdAt
      refine h.carriedBy packet' hpacket' x hx' c p ?_ (hprio'.symm.trans hp)
      rcases hcmdAt with heq | heq
      · exact heq.symm
      · cases heq
    rcases hpacket with hpacket | rfl
    · exact List.mem_append_left _ (hold packet (by simp [hsplit, hpacket]) hx)
    · rcases List.mem_append.mp hx with hx | hx
      · exact List.mem_append_left _ (hold last (by simp [hsplit]) hx)
      · obtain rfl := List.mem_singleton.mp hx
        obtain rfl := Option.some.inj (hcmd.symm.trans hc)
        obtain rfl := Option.some.inj (hprioAt.symm.trans hp)
        simp [hlastId]
  · intro t ht
    obtain ⟨hack, p, hp⟩ := h.ackedBy t ht
    exact ⟨hack, p, List.mem_append_left _ hp⟩
  · intro t ht
    rcases List.mem_append.mp ht with ht | ht
    · exact h.newer t ht
    · cases old with
      | none => simp at ht
      | some o =>
          obtain rfl : t = (o, cmd) := by simpa using ht
          obtain ⟨hrep', holive⟩ := hrep o rfl
          exact ⟨hrep', h.later o holive prio cmd hpop.mem_head hrep'⟩
  · intro x hx p y hy hrep'
    rcases hlive' x hx with rfl | hx
    · have heq := h.distinct prio p x hpop.mem_head y (hpop.mem hy) hrep'
      exact absurd (heq ▸ hy) (h.not_mem_popped hpop p)
    · exact h.later x hx p y (hpop.mem hy) hrep'
  · exact fun p p' y hy z hz => h.distinct p p' y (hpop.mem hy) z (hpop.mem hz)

/-- **A command is put back** to where it was. -/
theorem SenderRun.Inv.putBack (h : r.Inv) {oq' : VOutQueue} {prio : ℕ} {cmd : CmdPtr}
    (hpop : Popped r.s.outQueue oq' prio cmd) :
    ∃ oq'', vOutQueuePushHead oq' prio cmd = some (oq'', true, none) ∧ oq''.Inv none ∧
      oq''.contents = r.s.outQueue.contents := by
  have hnone : oq'.twin cmd = none := by
    rw [hpop.inv.twin_eq_none_iff hpop.accepted]
    intro p c hc hrep
    have heq := h.distinct p prio c (hpop.mem hc) cmd hpop.mem_head hrep
    exact h.not_mem_popped hpop p (heq ▸ hc)
  rcases vOutQueuePushHead_spec hpop.inv hpop.accepted prio with
    ⟨qa, htwin, -⟩ | ⟨oq'', -, hres, hinv, hqueues, hcmdAt⟩
  · rw [hnone] at htwin
    cases htwin
  · refine ⟨oq'', hres, hinv, ?_⟩
    rw [hpop.inv.contents_pushHead hnone hqueues hcmdAt, ← hpop.head]
    funext p
    by_cases hp : p = prio
    · rw [hp, Function.update_self]
    · rw [Function.update_of_ne hp, hpop.rest p hp]

/-- The invariant only reads the commands of the queue and of the history. -/
theorem SenderRun.Inv.of_contents (h : r.Inv) (s' : VSender) (tot : Option ℕ)
    (hbase : SenderRun.Base { r with s := s', tot := tot })
    (hcontents : s'.outQueue.contents = r.s.outQueue.contents)
    (hlive : s'.history.live = r.s.history.live)
    (hcarried : SenderRun.Carried { r with s := s', tot := tot }) :
    SenderRun.Inv { r with s := s', tot := tot } where
  base := hbase
  mass := by
    rw [← h.mass]
    simp only [SenderRun.places, hcontents, hlive]
  fresh := h.fresh
  nodup := h.nodup
  carriedBy := hcarried
  ackedBy := h.ackedBy
  newer := h.newer
  fake := h.fake
  later := by simpa only [hcontents, hlive] using h.later
  distinct := by simpa only [hcontents] using h.distinct

/-! ## Packets -/

/-- **An empty packet** is added to the history. -/
theorem SenderRun.Inv.openPacket (h : r.Inv) (id : ℕ) :
    SenderRun.Inv { r with
      s := { r.s with history := vPacketHistoryAddPacket r.s.history id }
      tot := some 0 } := by
  refine h.of_contents _ _ (h.base.openPacket id) rfl (VPacketHistory.live_addPacket _ _) ?_
  intro packet hpacket x hx c p hc hp
  rcases List.mem_append.mp hpacket with hpacket | hpacket
  · exact h.carriedBy packet hpacket x hx c p hc hp
  · obtain rfl := List.mem_singleton.mp hpacket
    cases hx

/-- The commands of the packets that are left are in the books. -/
theorem SenderRun.Inv.carried_of_sublist (h : r.Inv) {s' : VSender} {acks : List ℕ}
    {acked : List (ℕ × CmdPtr)} {replaced : List (CmdPtr × CmdPtr)} {lost : List CmdPtr}
    {tot : Option ℕ} (hsub : ∀ packet ∈ s'.history.packets, packet ∈ r.s.history.packets)
    (hframe : ∀ x ∈ s'.history.sent, s'.history.cmdAt x = r.s.history.cmdAt x ∧
      s'.history.prioAt x = r.s.history.prioAt x) :
    SenderRun.Carried
      { r with
        s := s', tot := tot, acks := acks, acked := acked, replaced := replaced, lost := lost } := by
  intro packet hpacket x hx c p hc hp
  obtain ⟨hcmdAt, hprioAt⟩ := hframe x (List.mem_flatMap.mpr ⟨packet, hpacket, hx⟩)
  exact h.carriedBy packet (hsub packet hpacket) x hx c p (hcmdAt ▸ hc) (hprioAt ▸ hp)

/-- A packet was removed, and its commands are acknowledged or lost. -/
theorem SenderRun.Inv.removed (h : r.Inv) {n : ℕ} {s' : VSender} {before after : List VSentPacket}
    {packet : VSentPacket} (hsplit : r.s.history.packets = before ++ packet :: after)
    (hack : Acked { r.s with sentSize := n } s' before after packet) {tot : Option ℕ}
    (htot : tot = none) {acks : List ℕ} {acked : List (ℕ × CmdPtr)} {lost : List CmdPtr}
    (hmass : (acked.map Prod.snd : Multiset CmdPtr) + (lost : Multiset CmdPtr) =
      (r.acked.map Prod.snd : Multiset CmdPtr) + (r.lost : Multiset CmdPtr) +
        (packet.cmds.filterMap r.s.history.cmdAt : List CmdPtr))
    (hacked : ∀ t ∈ acked, t.1 ∈ acks ∧ ∃ p, (t.1, p, t.2) ∈ r.carried) :
    SenderRun.Inv
      { r with s := s', tot := tot, acks := acks, acked := acked, lost := lost } := by
  have hsub : ∀ packet' ∈ s'.history.packets, packet' ∈ r.s.history.packets := by
    intro packet' hpacket'
    rw [hack.packets] at hpacket'
    rw [hsplit]
    exact List.mem_append.mpr ((List.mem_append.mp hpacket').imp_right (List.mem_cons_of_mem _))
  have hlive : ∀ x ∈ s'.history.live, x ∈ r.s.history.live := by
    intro x hx
    rw [← Multiset.mem_coe, ← hack.live]
    exact Multiset.mem_add.mpr (Or.inl (Multiset.mem_coe.mpr hx))
  refine
    { base := ?_, mass := ?_, fresh := h.fresh, nodup := h.nodup,
      carriedBy := h.carried_of_sublist hsub hack.frame, ackedBy := hacked, newer := h.newer,
      fake := h.fake, later := ?_, distinct := ?_ }
  · refine h.base.of_removed htot (hack.outQueue ▸ h.base.queue) (hack.outQueue ▸ h.base.bound)
      hack.sound fun x hx => ?_
    exact ⟨(sent_of_removed hsplit hack.packets hx).1, (hack.frame x hx).2⟩
  · have hgone : (s'.history.live : Multiset CmdPtr) +
        (packet.cmds.filterMap r.s.history.cmdAt : List CmdPtr) =
          (r.s.history.live : Multiset CmdPtr) := hack.live
    rw [← h.mass]
    ext x
    have hcount := congrArg (Multiset.count x) hgone
    have hmass' := congrArg (Multiset.count x) hmass
    simp only [SenderRun.places, hack.outQueue, Multiset.count_add] at hcount hmass' ⊢
    omega
  · intro x hx p y hy
    rw [hack.outQueue] at hy
    exact h.later x (hlive x hx) p y hy
  · intro p p' y hy z hz
    rw [hack.outQueue] at hy hz
    exact h.distinct p p' y hy z hz

/-- **A failed send.**  The commands of the packet are lost. -/
theorem SenderRun.Inv.sendFails (h : r.Inv) (n : ℕ)
    (hsafe : r.MarkSafe (.ack, r.s.history.lastId)) :
    ∃ s' cmds, handleAck { r.s with sentSize := n } r.s.history.lastId = some (s', cmds) ∧
      SenderRun.Inv { r with s := s', tot := none, lost := r.lost ++ cmds } := by
  rcases r.packet_cases r.s.history.lastId with
    hnone | ⟨before, packet, after, hfind, hsplit, -, hget⟩
  · refine ⟨_, _, handleAck_none hnone, ?_⟩
    rw [List.append_nil]
    refine h.of_contents { r.s with sentSize := n } none ?_ rfl rfl h.carriedBy
    exact ⟨h.base.queue, h.base.bound, h.base.history, h.base.prios, fun hne => absurd rfl hne⟩
  · obtain ⟨s', hres, hack⟩ := handleAck_spec (s := { r.s with sentSize := n })
      h.base.history hfind hsplit (hsafe _ _ hfind hget)
    refine ⟨s', _, hres, h.removed hsplit hack rfl ?_ h.ackedBy⟩
    rw [← Multiset.coe_add, add_assoc]

/-- **An acknowledged packet.** -/
theorem SenderRun.Inv.ack (h : r.Inv) (htot : r.tot = none) {id : ℕ}
    (hsafe : r.MarkSafe (.ack, id)) :
    ∃ r', r.mark (.ack, id) = some r' ∧ r'.Inv ∧ r'.tot = none := by
  rcases r.packet_cases id with hnone | ⟨before, packet, after, hfind, hsplit, hid, hget⟩
  · refine ⟨_, SenderRun.mark_ack (handleAck_none hnone), ?_, htot⟩
    refine
      { base := h.base.of_eq rfl fun htot' => htot', mass := ?_, fresh := h.fresh, nodup := h.nodup,
        carriedBy := h.carriedBy, ackedBy := ?_, newer := h.newer, fake := h.fake,
        later := h.later, distinct := h.distinct }
    · rw [← h.mass]
      simp [SenderRun.places]
    · intro t ht
      simp only [List.map_nil, List.append_nil] at ht
      exact ⟨List.mem_append_left _ (h.ackedBy t ht).1, (h.ackedBy t ht).2⟩
  · obtain ⟨s', hres, hack⟩ := handleAck_spec h.base.history hfind hsplit (hsafe _ _ hfind hget)
    refine ⟨_, SenderRun.mark_ack hres, h.removed hsplit hack htot ?_ ?_, htot⟩
    · have hmap : ((packet.cmds.filterMap r.s.history.cmdAt).map (id, ·)).map Prod.snd =
          packet.cmds.filterMap r.s.history.cmdAt := by
        simp [List.map_map, Function.comp_def]
      rw [List.map_append, hmap, ← Multiset.coe_add, add_right_comm]
    · intro t ht
      rcases List.mem_append.mp ht with ht | ht
      · exact ⟨List.mem_append_left _ (h.ackedBy t ht).1, (h.ackedBy t ht).2⟩
      · obtain ⟨c, hc, rfl⟩ := List.mem_map.mp ht
        obtain ⟨x, hx, hcmdAt⟩ := List.mem_filterMap.mp hc
        have hpacket : packet ∈ r.s.history.packets := by simp [hsplit]
        obtain ⟨sentCmd, hsc⟩ := h.base.history.inv.stored x
          (List.mem_flatMap.mpr ⟨packet, hpacket, hx⟩)
        refine ⟨by simp, sentCmd.prio, ?_⟩
        rw [← hid]
        exact h.carriedBy packet hpacket x hx c _ hcmdAt (by simp [VPacketHistory.prioAt, hsc])

/-! ## A lost packet -/

theorem total_append (c d : ℕ → List CmdPtr) :
    total (fun p => c p ++ d p) = total c + total d := by
  unfold total
  rw [← Finset.sum_add_distrib]
  exact Finset.sum_congr rfl fun p _ => (Multiset.coe_add _ _).symm

theorem goesBack_iff {oq : VOutQueue} {history : VPacketHistory} {x : ℕ} :
    goesBack oq history x = true ↔ ∃ c, history.cmdAt x = some c ∧ oq.twin c = none := by
  unfold goesBack
  cases history.cmdAt x with
  | none => simp
  | some c => simp

/-- The commands that go back to the single queues are the commands that go back. -/
theorem total_backTo {oq : VOutQueue} {history : VPacketHistory} {cmds : List ℕ}
    (hprio : ∀ x ∈ cmds, ∃ p, history.prioAt x = some p ∧ p ≤ maxPriority) :
    total (fun p => (backTo oq history p cmds).filterMap history.cmdAt) =
      (backCmds oq history cmds : Multiset CmdPtr) := by
  induction cmds with
  | nil => exact total_nil fun _ => rfl
  | cons x rest ih =>
      have ih' := ih fun y hy => hprio y (List.mem_cons_of_mem _ hy)
      by_cases hgo : goesBack oq history x = true
      · obtain ⟨c, hc, -⟩ := goesBack_iff.mp hgo
        obtain ⟨p₀, hp₀, hle⟩ := hprio x List.mem_cons_self
        let l := fun p => (backTo oq history p rest).filterMap history.cmdAt
        have hupdate : (fun p => (backTo oq history p (x :: rest)).filterMap history.cmdAt) =
            Function.update l p₀ (c :: l p₀) := by
          funext p
          by_cases hp : p = p₀
          · subst hp
            simp [backTo, hgo, hp₀, hc, l]
          · have hne : ¬ p₀ = p := fun heq => hp heq.symm
            simp [backTo, hgo, hp₀, hp, hne, l]
        have hsum := total_update (c := l) hle (c :: l p₀)
        have hback : backCmds oq history (x :: rest) = c :: backCmds oq history rest := by
          simp [backCmds, hgo, hc]
        rw [hupdate, hback, ← Multiset.cons_coe, ← ih']
        rw [← Multiset.cons_coe, Multiset.cons_add, add_comm (l p₀ : Multiset CmdPtr),
          ← Multiset.cons_add] at hsum
        exact add_right_cancel hsum
      · have hskip : ∀ p, backTo oq history p (x :: rest) = backTo oq history p rest := fun p =>
          List.filter_cons_of_neg (by simp [hgo])
        have hback : backCmds oq history (x :: rest) = backCmds oq history rest := by
          simp [backCmds, hgo]
        simp only [hskip, hback]
        exact ih'

/-- A command that goes back was sent with the packet and has no newer version. -/
theorem mem_backTo {oq : VOutQueue} {history : VPacketHistory} {cmds : List ℕ} {p : ℕ}
    {y : CmdPtr} (hy : y ∈ (backTo oq history p cmds).filterMap history.cmdAt) :
    ∃ sa ∈ cmds, history.cmdAt sa = some y ∧ oq.twin y = none := by
  obtain ⟨sa, hsa, hcmdAt⟩ := List.mem_filterMap.mp hy
  obtain ⟨hmem, hgo⟩ := List.mem_filter.mp hsa
  rw [Bool.and_eq_true] at hgo
  obtain ⟨c, hc, htwin⟩ := goesBack_iff.mp hgo.1
  rw [hcmdAt] at hc
  obtain rfl := Option.some.inj hc
  exact ⟨sa, hmem, hcmdAt, htwin⟩

/-- A command that does not go back has a newer version in the queue. -/
theorem SenderRun.Inv.newest_of_stale (h : r.Inv) {packet : VSentPacket}
    (hpacket : packet ∈ r.s.history.packets) {c : CmdPtr}
    (hc : c ∈ staleCmds r.s.outQueue r.s.history packet.cmds) :
    Replaces (r.s.outQueue.newest c) c ∧ c.addr < (r.s.outQueue.newest c).addr := by
  obtain ⟨x, hx, hcmdAt⟩ := List.mem_filterMap.mp hc
  obtain ⟨hmem, hstay⟩ := List.mem_filter.mp hx
  have hsent : x ∈ r.s.history.sent := List.mem_flatMap.mpr ⟨packet, hpacket, hmem⟩
  have hlive : c ∈ r.s.history.live := List.mem_filterMap.mpr ⟨x, hsent, hcmdAt⟩
  cases htwin : r.s.outQueue.twin c with
  | none => simp [goesBack, hcmdAt, htwin] at hstay
  | some qa =>
      obtain ⟨o, p, ho, hmem', hrep⟩ :=
        h.base.queue.mem_of_twin (h.base.history.inv.accepted hcmdAt) htwin
      have hnewest : r.s.outQueue.newest c = o := by simp [VOutQueue.newest, htwin, ho]
      rw [hnewest]
      exact ⟨hrep.symm, h.later c hlive p o hmem' hrep.symm⟩

/-- **A lost packet.** -/
theorem SenderRun.Inv.nak (h : r.Inv) (htot : r.tot = none) {id : ℕ}
    (hsafe : r.MarkSafe (.nak, id)) :
    ∃ r', r.mark (.nak, id) = some r' ∧ r'.Inv ∧ r'.tot = none := by
  rcases r.packet_cases id with hnone | ⟨before, packet, after, hfind, hsplit, hid, hget⟩
  · refine ⟨_, SenderRun.mark_nak (handleNak_none hnone), ?_, htot⟩
    simpa using h
  · obtain ⟨s', hres, hlost⟩ := handleNak_spec h.base.queue h.base.history hfind hsplit
      (hsafe _ _ hfind hget)
    refine ⟨_, SenderRun.mark_nak hres, ?_, htot⟩
    have hpacket : packet ∈ r.s.history.packets := by simp [hsplit]
    have hsent : ∀ x ∈ packet.cmds, x ∈ r.s.history.sent := fun x hx =>
      List.mem_flatMap.mpr ⟨packet, hpacket, hx⟩
    have hsub : ∀ packet' ∈ s'.history.packets, packet' ∈ r.s.history.packets := by
      intro packet' hpacket'
      rw [hlost.packets] at hpacket'
      rw [hsplit]
      exact List.mem_append.mpr ((List.mem_append.mp hpacket').imp_right (List.mem_cons_of_mem _))
    have hprio : ∀ x ∈ packet.cmds, ∃ p, r.s.history.prioAt x = some p ∧ p ≤ maxPriority := by
      intro x hx
      obtain ⟨sentCmd, hsc⟩ := h.base.history.inv.stored x (hsent x hx)
      have hp : r.s.history.prioAt x = some sentCmd.prio := by simp [VPacketHistory.prioAt, hsc]
      exact ⟨sentCmd.prio, hp, h.base.prios x (hsent x hx) _ hp⟩
    have hmem : ∀ p, ∀ y ∈ s'.outQueue.contents p, y ∈ r.s.outQueue.contents p ∨
        ∃ sa ∈ packet.cmds, r.s.history.cmdAt sa = some y ∧ r.s.outQueue.twin y = none := by
      intro p y hy
      rw [hlost.contents p] at hy
      exact (List.mem_append.mp hy).elim (fun hy => Or.inr (mem_backTo hy)) Or.inl
    refine
      { base := ?_, mass := ?_, fresh := h.fresh, nodup := h.nodup,
        carriedBy := h.carried_of_sublist hsub fun x hx => (hlost.frame x hx).2,
        ackedBy := h.ackedBy, newer := ?_, fake := h.fake, later := ?_, distinct := ?_ }
    · refine h.base.of_removed htot hlost.queue ?_ hlost.sound fun x hx => ?_
      · intro p hp
        apply List.eq_nil_iff_forall_not_mem.mpr
        intro y hy
        rw [hlost.contents p, h.base.bound p hp, List.append_nil] at hy
        obtain ⟨sa, hsa, -⟩ := List.mem_filterMap.mp hy
        obtain ⟨hsa, hgo⟩ := List.mem_filter.mp hsa
        obtain ⟨p', hp', hle⟩ := hprio sa hsa
        simp only [hp', Bool.and_eq_true, decide_eq_true_eq, Option.some.injEq] at hgo
        omega
      · exact ⟨(hlost.frame x hx).1, (hlost.frame x hx).2.2⟩
    · have htotal : total s'.outQueue.contents =
          (backCmds r.s.outQueue r.s.history packet.cmds : Multiset CmdPtr) +
            total r.s.outQueue.contents := by
        rw [← total_backTo hprio, ← total_append]
        exact congrArg total (funext hlost.contents)
      have hmap : ((staleCmds r.s.outQueue r.s.history packet.cmds).map fun cmd =>
          (cmd, r.s.outQueue.newest cmd)).map Prod.fst =
            staleCmds r.s.outQueue r.s.history packet.cmds := by
        simp [List.map_map, Function.comp_def]
      rw [← h.mass]
      ext x
      have hcount := congrArg (Multiset.count x) hlost.live
      simp only [SenderRun.places, htotal, List.map_append, hmap, ← Multiset.coe_add,
        Multiset.count_add] at hcount ⊢
      omega
    · intro t ht
      rcases List.mem_append.mp ht with ht | ht
      · exact h.newer t ht
      · obtain ⟨c, hc, rfl⟩ := List.mem_map.mp ht
        exact h.newest_of_stale hpacket hc
    · intro x hx p y hy hrep
      obtain ⟨sx, hsx, hcmdx⟩ := List.mem_filterMap.mp hx
      obtain ⟨hsx', hcmdx', -⟩ := hlost.frame sx hsx
      rw [hcmdx'] at hcmdx
      rcases hmem p y hy with hy | ⟨sa, hsa, hcmdy, -⟩
      · exact h.later x (List.mem_filterMap.mpr ⟨sx, hsx', hcmdx⟩) p y hy hrep
      · -- the packet of `y` is gone, so `x` is another sent command
        have hne : sa ≠ sx := by
          rintro rfl
          exact (sent_of_removed hsplit hlost.packets hsx).2 h.base.history.nodup hsa
        exact absurd hrep
          (h.base.history.inv.not_replaces hsx' (hsent sa hsa) hne hcmdx hcmdy)
    · intro p p' y hy z hz hrep
      rcases hmem p y hy with hy | ⟨sa, hsa, hcmdy, htwiny⟩ <;>
        rcases hmem p' z hz with hz | ⟨sb, hsb, hcmdz, htwinz⟩
      · exact h.distinct p p' y hy z hz hrep
      · have haccz := h.base.history.inv.accepted hcmdz
        exact absurd hrep ((h.base.queue.twin_eq_none_iff haccz).mp htwinz p y hy)
      · have haccy := h.base.history.inv.accepted hcmdy
        exact absurd hrep.symm ((h.base.queue.twin_eq_none_iff haccy).mp htwiny p' z hz)
      · by_cases hne : sb = sa
        · subst hne
          rw [hcmdy] at hcmdz
          exact Option.some.inj hcmdz
        · exact absurd hrep
            (h.base.history.inv.not_replaces (hsent sa hsa) (hsent sb hsb) hne hcmdy hcmdz)

end Verse
