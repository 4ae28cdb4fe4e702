import Verse.Lib.Run
import Mathlib.Data.List.Nodup
import Mathlib.Data.UInt
import Mathlib.Tactic.Common

/-!
# The ports of UDP connections

`port_list` says for every port how many connections use it.  A port is taken in
`vs_NEGOTIATE_token_ded_loop`, before it is known whether the data connection is to use UDP,
and given back at the end of `vs_main_dgram_loop`, by the number of the port.

`PortState.Sound` are the steps after which the numbers are right: UDP with a port that is
free, and a UDP thread that reaches its end with the port it was started with.
-/

namespace Verse

open Lib

/-! ## The list of ports -/

/-- `VS_Port`. -/
structure VSPort where
  portNumber : UInt16
  aggregation : UInt32
  deriving DecidableEq, Repr

/-- The loop over `port_list` in `vs_NEGOTIATE_token_ded_loop`: the chosen port and the list
afterwards.  The loop is left at the first port that is not used; `la_port` is an
`unsigned char`, and the port it stands for is not counted. -/
def searchPort : List VSPort → UInt32 → UInt8 → UInt16 × List VSPort
  | [], _, laPort => (laPort.toUInt16, [])
  | p :: rest, minAggregation, laPort =>
      if p.aggregation = 0 then
        (p.portNumber, { p with aggregation := p.aggregation + 1 } :: rest)
      else
        let found :=
          searchPort rest (if p.aggregation < minAggregation then p.aggregation else minAggregation)
            (if p.aggregation < minAggregation then p.portNumber.toUInt8 else laPort)
        (found.1, p :: found.2)

/-- The loop over `port_list` at the end of `vs_main_dgram_loop`. -/
def releasePort (port : UInt16) : List VSPort → List VSPort
  | [] => []
  | p :: rest =>
      if port = p.portNumber then { p with aggregation := p.aggregation - 1 } :: rest
      else p :: releasePort port rest

/-- `UINT_MAX`. -/
def uIntMax : UInt32 := 0xFFFFFFFF

/-! ## Sessions -/

/-- The transport protocol of a data connection. -/
inductive DataTransport where
  | udp
  | tcp
  | webSocket
  deriving DecidableEq, Repr

/-- A running UDP thread.  The port it was started with is not in the source. -/
structure UdpThread where
  session : ℕ
  port : UInt16
  deriving DecidableEq, Repr

/-- `hostPort` is `dgram_conn->io_ctx.host_addr.port` of every session. -/
structure PortState where
  portList : List VSPort
  hostPort : ℕ → UInt16
  threads : List UdpThread

/-- `vs_init`: ten ports from 50000 on. -/
def vsInitPorts : PortState where
  portList := (List.range 10).map fun i => ⟨50000 + UInt16.ofNat i, 0⟩
  hostPort _ := 0
  threads := []

inductive PortEvent where
  /-- `vs_NEGOTIATE_token_ded_loop`; for UDP a thread is created if that is possible -/
  | negotiate (session : ℕ) (transport : DataTransport) (threadCreated : Bool)
  /-- a UDP thread comes to the end of `vs_main_dgram_loop` -/
  | finish (i : ℕ)
  /-- a UDP thread is cancelled, as the client did not confirm the URL -/
  | cancel (i : ℕ)
  deriving DecidableEq, Repr

def PortState.step (s : PortState) : PortEvent → Option PortState
  | .negotiate session transport threadCreated =>
      let (port, portList) := searchPort s.portList uIntMax 0
      some
        { portList
          hostPort := Function.update s.hostPort session port
          threads :=
            if transport = .udp ∧ threadCreated then s.threads ++ [⟨session, port⟩] else s.threads }
  | .finish i =>
      (s.threads[i]?).map fun thread =>
        { s with
          portList := releasePort (s.hostPort thread.session) s.portList
          threads := s.threads.eraseIdx i }
  | .cancel i => (s.threads[i]?).map fun _ => { s with threads := s.threads.eraseIdx i }

/-- The number of live UDP sessions that use a port. -/
def PortState.live (s : PortState) (port : UInt16) : ℕ := s.threads.countP fun t => t.port = port

/-- Every entry counts the live UDP sessions that use its port. -/
def PortState.Counted (s : PortState) : Prop :=
  ∀ p ∈ s.portList, p.aggregation.toNat = s.live p.portNumber

/-- The port of the session belongs to an entry with the least aggregation. -/
def PortState.LeastUsed (s : PortState) (port : UInt16) : Prop :=
  ∃ p ∈ s.portList, p.portNumber = port ∧ ∀ p' ∈ s.portList, p.aggregation ≤ p'.aggregation

/-- **The step keeps the books**: the chosen port is one with the least aggregation, and the
entries count the sessions afterwards. -/
def PortState.Keeps (s : PortState) (e : PortEvent) : Prop :=
  ∀ s', s.step e = some s' →
    (∀ session transport threadCreated, e = .negotiate session transport threadCreated →
      s.LeastUsed (s'.hostPort session)) ∧ s'.Counted

/-- The data connection uses UDP, its thread is created and there is a free port; the thread
that ends still has its port; no thread is cancelled. -/
def PortState.Sound (s : PortState) : PortEvent → Prop
  | .negotiate _ transport threadCreated =>
      transport = .udp ∧ threadCreated = true ∧ ∃ p ∈ s.portList, p.aggregation = 0
  | .finish i => ∀ thread ∈ s.threads[i]?, s.hostPort thread.session = thread.port
  | .cancel i => s.threads[i]? = none

/-! ## The two loops -/

theorem searchPort_free {portList : List VSPort} (h : ∃ p ∈ portList, p.aggregation = 0)
    (minAggregation : UInt32) (laPort : UInt8) :
    ∃ front p rest, portList = front ++ p :: rest ∧ p.aggregation = 0 ∧
      searchPort portList minAggregation laPort =
        (p.portNumber, front ++ { p with aggregation := 1 } :: rest) := by
  induction portList generalizing minAggregation laPort with
  | nil => simp at h
  | cons p rest ih =>
      by_cases hp : p.aggregation = 0
      · refine ⟨[], p, rest, rfl, hp, ?_⟩
        rw [searchPort, if_pos hp, hp]
        rfl
      · have htail : ∃ p ∈ rest, p.aggregation = 0 := by
          obtain ⟨q, hq, hzero⟩ := h
          rcases List.mem_cons.mp hq with rfl | hq
          · exact absurd hzero hp
          · exact ⟨q, hq, hzero⟩
        obtain ⟨front, q, rest', rfl, hzero, hsearch⟩ := ih htail _ _
        refine ⟨p :: front, q, rest', rfl, hzero, ?_⟩
        rw [searchPort, if_neg hp, hsearch]
        rfl

/-- When all ports are used, the list stays as it is, and the chosen port has lost its upper
byte. -/
theorem searchPort_full {portList : List VSPort} (h : ∀ p ∈ portList, p.aggregation ≠ 0)
    (minAggregation : UInt32) (laPort : UInt8) :
    (searchPort portList minAggregation laPort).1.toNat < 256 ∧
      (searchPort portList minAggregation laPort).2 = portList := by
  induction portList generalizing minAggregation laPort with
  | nil => exact ⟨laPort.toNat_lt, rfl⟩
  | cons p rest ih =>
      obtain ⟨hp, htail⟩ := List.forall_mem_cons.mp h
      obtain ⟨hsmall, hrest⟩ := ih htail _ _
      rw [searchPort, if_neg hp]
      exact ⟨hsmall, congrArg (p :: ·) hrest⟩

theorem releasePort_split {front rest : List VSPort} {p : VSPort}
    (hfront : ∀ q ∈ front, q.portNumber ≠ p.portNumber) :
    releasePort p.portNumber (front ++ p :: rest) =
      front ++ { p with aggregation := p.aggregation - 1 } :: rest := by
  induction front with
  | nil => exact if_pos rfl
  | cons q front ih =>
      obtain ⟨hq, htail⟩ := List.forall_mem_cons.mp hfront
      rw [List.cons_append, releasePort, if_neg (Ne.symm hq), ih htail]
      rfl

/-- An entry with another number is not touched. -/
theorem releasePort_other {port : UInt16} {portList : List VSPort} {p : VSPort}
    (hp : p ∈ portList) (hport : port ≠ p.portNumber) : p ∈ releasePort port portList := by
  induction portList with
  | nil => exact hp
  | cons q rest ih =>
      rw [releasePort]
      split
      case isTrue heq =>
        rcases List.mem_cons.mp hp with rfl | hp
        · exact absurd heq hport
        · exact List.mem_cons_of_mem _ hp
      case isFalse hne =>
        rcases List.mem_cons.mp hp with rfl | hp
        · exact List.mem_cons_self
        · exact List.mem_cons_of_mem _ (ih hp)

/-! ## The invariant -/

/-- Between the steps of a sound run: the ports are those of `vs_init`, they are counted, no
port is used twice, and every thread has a port of the list. -/
structure PortState.Inv (s : PortState) : Prop where
  numbers : (s.portList.map VSPort.portNumber).Nodup
  wide : ∀ p ∈ s.portList, 256 ≤ p.portNumber.toNat
  counted : s.Counted
  small : ∀ p ∈ s.portList, p.aggregation = 0 ∨ p.aggregation = 1
  listed : ∀ t ∈ s.threads, ∃ p ∈ s.portList, p.portNumber = t.port

variable {s s' : PortState}

theorem vsInitPorts_inv : vsInitPorts.Inv where
  numbers := by decide
  wide := by decide
  counted := show ∀ p ∈ vsInitPorts.portList, p.aggregation.toNat = 0 by decide
  small := by decide
  listed t ht := absurd ht List.not_mem_nil

/-- The entries around one of the list have other numbers. -/
theorem PortState.Inv.others (h : s.Inv) {front rest : List VSPort} {p : VSPort}
    (hsplit : s.portList = front ++ p :: rest) :
    (∀ q ∈ front, q.portNumber ≠ p.portNumber) ∧ ∀ q ∈ rest, q.portNumber ≠ p.portNumber := by
  have hnodup := h.numbers
  rw [hsplit, List.map_append, List.map_cons, List.nodup_middle, List.nodup_cons,
    List.mem_append, not_or] at hnodup
  obtain ⟨⟨hfront, hrest⟩, -⟩ := hnodup
  constructor
  · intro q hq heq
    exact hfront (List.mem_map.mpr ⟨q, hq, heq⟩)
  · intro q hq heq
    exact hrest (List.mem_map.mpr ⟨q, hq, heq⟩)

/-- One entry gets another aggregation, and the sessions of its port change accordingly. -/
theorem PortState.Inv.update (h : s.Inv) {front rest : List VSPort} {p : VSPort}
    (hsplit : s.portList = front ++ p :: rest) {aggregation : UInt32}
    (hlist : s'.portList = front ++ { p with aggregation := aggregation } :: rest)
    (hsmall : aggregation = 0 ∨ aggregation = 1)
    (hcount : aggregation.toNat = s'.live p.portNumber)
    (hother : ∀ port, port ≠ p.portNumber → s'.live port = s.live port)
    (hlisted : ∀ t ∈ s'.threads, t ∈ s.threads ∨ t.port = p.portNumber) : s'.Inv := by
  obtain ⟨hfront, hrest⟩ := h.others hsplit
  have hold : ∀ q ∈ s'.portList, q = { p with aggregation := aggregation } ∨
      q ∈ s.portList ∧ q.portNumber ≠ p.portNumber := by
    intro q hq
    rw [hlist] at hq
    rcases List.mem_append.mp hq with hq | hq
    · exact Or.inr ⟨hsplit ▸ List.mem_append_left _ hq, hfront q hq⟩
    · rcases List.mem_cons.mp hq with rfl | hq
      · exact Or.inl rfl
      · exact Or.inr ⟨hsplit ▸ List.mem_append_right _ (List.mem_cons_of_mem _ hq), hrest q hq⟩
  have hp : p ∈ s.portList := hsplit ▸ List.mem_append_right _ List.mem_cons_self
  have hnumbers : s'.portList.map VSPort.portNumber = s.portList.map VSPort.portNumber := by
    rw [hlist, hsplit, List.map_append, List.map_append, List.map_cons, List.map_cons]
  constructor
  case numbers => rw [hnumbers]; exact h.numbers
  case wide =>
    intro q hq
    rcases hold q hq with rfl | ⟨hq, -⟩
    · exact h.wide p hp
    · exact h.wide q hq
  case counted =>
    intro q hq
    rcases hold q hq with rfl | ⟨hq, hne⟩
    · exact hcount
    · rw [hother _ hne]
      exact h.counted q hq
  case small =>
    intro q hq
    rcases hold q hq with rfl | ⟨hq, -⟩
    · exact hsmall
    · exact h.small q hq
  case listed =>
    intro t ht
    have hnumber : t.port ∈ s'.portList.map VSPort.portNumber := by
      rw [hnumbers]
      rcases hlisted t ht with ht | heq
      · obtain ⟨q, hq, heq⟩ := h.listed t ht
        exact List.mem_map.mpr ⟨q, hq, heq⟩
      · exact List.mem_map.mpr ⟨p, hp, heq.symm⟩
    obtain ⟨q, hq, heq⟩ := List.mem_map.mp hnumber
    exact ⟨q, hq, heq⟩

/-! ## One step -/

theorem PortState.live_append {t : UdpThread} (h : s'.threads = s.threads ++ [t]) (port : UInt16) :
    s'.live port = s.live port + if t.port = port then 1 else 0 := by
  unfold PortState.live
  rw [h, List.countP_append, List.countP_singleton]
  simp only [decide_eq_true_eq]

theorem PortState.live_eraseIdx {i : ℕ} {t : UdpThread} (ht : s.threads[i]? = some t)
    (h : s'.threads = s.threads.eraseIdx i) (port : UInt16) :
    s.live port = s'.live port + if t.port = port then 1 else 0 := by
  obtain ⟨hi, rfl⟩ := List.getElem?_eq_some_iff.mp ht
  have hperm := List.getElem_cons_eraseIdx_perm hi
  unfold PortState.live
  rw [h, ← hperm.countP_eq, List.countP_cons]
  simp only [decide_eq_true_eq]

/-- A session that takes a free port. -/
theorem PortState.step_free (h : s.Inv) (session : ℕ) (hfree : ∃ p ∈ s.portList, p.aggregation = 0) :
    ∃ s', s.step (.negotiate session .udp true) = some s' ∧ s.LeastUsed (s'.hostPort session) ∧
      s'.Inv := by
  obtain ⟨front, p, rest, hsplit, hzero, hsearch⟩ := searchPort_free hfree uIntMax 0
  have hp : p ∈ s.portList := hsplit ▸ List.mem_append_right _ List.mem_cons_self
  have hnone : s.live p.portNumber = 0 := by
    rw [← h.counted p hp, hzero]
    rfl
  refine ⟨⟨front ++ { p with aggregation := 1 } :: rest, Function.update s.hostPort session
    p.portNumber, s.threads ++ [⟨session, p.portNumber⟩]⟩, ?_, ?_, ?_⟩
  · simp only [PortState.step, hsearch, true_and, if_true]
  · refine ⟨p, hp, ?_, fun p' _ => ?_⟩
    · exact (Function.update_self session p.portNumber s.hostPort).symm
    · rw [hzero]
      exact UInt32.zero_le
  · refine h.update hsplit rfl (Or.inr rfl) ?_ ?_ ?_
    · rw [PortState.live_append rfl, hnone, if_pos rfl]
      rfl
    · intro port hne
      rw [PortState.live_append rfl, if_neg (Ne.symm hne), Nat.add_zero]
    · intro t ht
      rcases List.mem_append.mp ht with ht | ht
      · exact Or.inl ht
      · obtain rfl := List.mem_singleton.mp ht
        exact Or.inr rfl

/-- Another session takes a port that no thread uses, or none at all. -/
theorem PortState.not_keeps_negotiate (h : s.Inv) {session : ℕ} {transport : DataTransport}
    {threadCreated : Bool} (hnot : ¬ s.Sound (.negotiate session transport threadCreated)) :
    ¬ s.Keeps (.negotiate session transport threadCreated) := by
  intro hkeeps
  obtain ⟨hleast, hcounted⟩ := hkeeps _ rfl
  by_cases hfree : ∃ p ∈ s.portList, p.aggregation = 0
  case pos =>
    obtain ⟨front, p, rest, hsplit, hzero, hsearch⟩ := searchPort_free hfree uIntMax 0
    have hp : p ∈ s.portList := hsplit ▸ List.mem_append_right _ List.mem_cons_self
    have hthread : ¬ (transport = .udp ∧ threadCreated = true) := fun hudp =>
      hnot ⟨hudp.1, hudp.2, hfree⟩
    have hone := hcounted { p with aggregation := 1 } (by rw [hsearch]; simp)
    have hzero' : s.live p.portNumber = 0 := by
      rw [← h.counted p hp, hzero]
      rfl
    have hlive : (1 : UInt32).toNat = s.live p.portNumber := by
      simpa only [PortState.live, if_neg hthread] using hone
    rw [hzero'] at hlive
    cases hlive
  case neg =>
    have hused : ∀ p ∈ s.portList, p.aggregation ≠ 0 := fun p hp hzero => hfree ⟨p, hp, hzero⟩
    obtain ⟨hsmall, -⟩ := searchPort_full hused uIntMax 0
    obtain ⟨p, hp, hnumber, -⟩ := hleast session transport threadCreated rfl
    have hwide := h.wide p hp
    rw [hnumber] at hwide
    dsimp only at hwide
    rw [Function.update_self] at hwide
    omega

/-- A thread ends, and its port is given back. -/
theorem PortState.step_finish (h : s.Inv) {i : ℕ} {t : UdpThread} (ht : s.threads[i]? = some t)
    (hport : s.hostPort t.session = t.port) :
    ∃ s', s.step (.finish i) = some s' ∧ s'.Inv := by
  obtain ⟨p, hp, hnumber⟩ := h.listed t (List.mem_of_getElem? ht)
  obtain ⟨front, rest, hsplit⟩ := List.append_of_mem hp
  have hrelease : releasePort (s.hostPort t.session) s.portList =
      front ++ { p with aggregation := p.aggregation - 1 } :: rest := by
    rw [hport, ← hnumber, hsplit]
    exact releasePort_split (h.others hsplit).1
  have hlive : ∀ port, s.live port =
      PortState.live { s with threads := s.threads.eraseIdx i } port +
        if t.port = port then 1 else 0 := PortState.live_eraseIdx ht rfl
  have hthis := hlive p.portNumber
  rw [if_pos hnumber.symm, ← h.counted p hp] at hthis
  have hone : p.aggregation = 1 := by
    rcases h.small p hp with hzero | hone
    · rw [hzero] at hthis
      exact absurd hthis (by simp)
    · exact hone
  refine ⟨{ s with
    portList := front ++ { p with aggregation := p.aggregation - 1 } :: rest
    threads := s.threads.eraseIdx i }, ?_, ?_⟩
  · simp only [PortState.step, ht, Option.map_some, hrelease]
  · refine h.update hsplit rfl ?_ ?_ ?_ ?_
    · rw [hone]
      exact Or.inl rfl
    · rw [hone] at hthis ⊢
      exact (Nat.succ.inj hthis)
    · intro port hne
      have hrest := hlive port
      rw [if_neg (hnumber ▸ Ne.symm hne), Nat.add_zero] at hrest
      exact hrest.symm
    · intro u hu
      exact Or.inl (List.mem_of_mem_eraseIdx hu)

/-- The entry of the port of a thread that is gone counts it still. -/
theorem PortState.not_counted_of_gone (h : s.Inv) {i : ℕ} {t : UdpThread}
    (ht : s.threads[i]? = some t) (hthreads : s'.threads = s.threads.eraseIdx i)
    (hkept : ∀ p ∈ s.portList, p.portNumber = t.port → p ∈ s'.portList) : ¬ s'.Counted := by
  intro hcounted
  obtain ⟨p, hp, hnumber⟩ := h.listed t (List.mem_of_getElem? ht)
  have hbefore := h.counted p hp
  have hafter := hcounted p (hkept p hp hnumber)
  have hlive := PortState.live_eraseIdx ht hthreads p.portNumber
  rw [if_pos hnumber.symm] at hlive
  omega

/-- **One step** keeps the books exactly if it is sound. -/
theorem PortState.keeps_iff (h : s.Inv) (e : PortEvent) : s.Keeps e ↔ s.Sound e := by
  cases e with
  | negotiate session transport threadCreated =>
      constructor
      · intro hkeeps
        by_contra hnot
        exact PortState.not_keeps_negotiate h hnot hkeeps
      · rintro ⟨rfl, rfl, hfree⟩ s' hstep
        obtain ⟨s₁, hstep₁, hleast, hinv⟩ := PortState.step_free h session hfree
        obtain rfl := Option.some.inj (hstep₁.symm.trans hstep)
        refine ⟨?_, hinv.counted⟩
        intro session' transport threadCreated heq
        cases heq
        exact hleast
  | finish i =>
      constructor
      · intro hkeeps t ht
        by_contra hport
        have hstep : s.step (.finish i) = some { s with
            portList := releasePort (s.hostPort t.session) s.portList
            threads := s.threads.eraseIdx i } := by
          rw [PortState.step, Option.mem_def.mp ht, Option.map_some]
        refine PortState.not_counted_of_gone h ht rfl ?_ (hkeeps _ hstep).2
        intro p hp hnumber
        exact releasePort_other hp (hnumber ▸ hport)
      · intro hsound s' hstep
        obtain ⟨t, ht, -⟩ := Option.map_eq_some_iff.mp hstep
        obtain ⟨s₁, hstep₁, hinv⟩ := PortState.step_finish h ht (hsound t ht)
        obtain rfl := Option.some.inj (hstep₁.symm.trans hstep)
        exact ⟨fun _ _ _ heq => PortEvent.noConfusion heq, hinv.counted⟩
  | cancel i =>
      constructor
      · intro hkeeps
        cases ht : s.threads[i]? with
        | none => exact ht
        | some t =>
            have hstep : s.step (.cancel i) = some { s with threads := s.threads.eraseIdx i } := by
              rw [PortState.step, ht, Option.map_some]
            have hgone := (hkeeps _ hstep).2
            exact absurd hgone (PortState.not_counted_of_gone h ht rfl fun p hp _ => hp)
      · intro hnone s' hstep
        have hno : s.step (.cancel i) = none := by
          rw [PortState.step, show s.threads[i]? = none from hnone, Option.map_none]
        rw [hno] at hstep
        cases hstep

/-- A sound step keeps the invariant. -/
theorem PortState.Inv.step (h : s.Inv) {e : PortEvent} (hsound : s.Sound e)
    (hstep : s.step e = some s') : s'.Inv := by
  cases e with
  | negotiate session transport threadCreated =>
      obtain ⟨rfl, rfl, hfree⟩ := hsound
      obtain ⟨s₁, hstep₁, -, hinv⟩ := PortState.step_free h session hfree
      obtain rfl := Option.some.inj (hstep₁.symm.trans hstep)
      exact hinv
  | finish i =>
      obtain ⟨t, ht, -⟩ := Option.map_eq_some_iff.mp hstep
      obtain ⟨s₁, hstep₁, hinv⟩ := PortState.step_finish h ht (hsound t ht)
      obtain rfl := Option.some.inj (hstep₁.symm.trans hstep)
      exact hinv
  | cancel i =>
      obtain ⟨t, ht, -⟩ := Option.map_eq_some_iff.mp hstep
      rw [show s.threads[i]? = none from hsound] at ht
      cases ht

/-! ## Runs -/

/-- **When the ports are counted.**  From the start of the server on, all steps of a run keep
the books exactly if all steps are sound. -/
theorem ports_kept_iff (events : List PortEvent) :
    Admissible PortState.step PortState.Keeps vsInitPorts events ↔
      Admissible PortState.step PortState.Sound vsInitPorts events :=
  admissible_congr_of_invariant (fun s e hinv => PortState.keeps_iff (s := s) hinv e)
    (fun s e _ hinv hkeeps hstep =>
      hinv.step ((PortState.keeps_iff (s := s) hinv e).mp hkeeps) hstep) vsInitPorts_inv events

/-- A TCP session takes the port 50000, and no UDP session uses it. -/
theorem not_ports_kept :
    ¬ ∀ events, Admissible PortState.step PortState.Keeps vsInitPorts events := by
  intro hall
  have hkeeps := (hall [.negotiate 0 .tcp true]).1
  have hone := (hkeeps _ rfl).2 ⟨50000, 1⟩ (by decide)
  exact absurd hone (by decide)

end Verse
