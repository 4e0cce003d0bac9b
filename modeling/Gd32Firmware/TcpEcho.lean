import Gd32Firmware.LwipInit
import Gd32Firmware.Machine
import Gd32Firmware.Pbuf
import Mathlib.Algebra.BigOperators.Group.List.Basic

/-!
# The TCP echo server

`tcpecho_raw.c` on one accepted connection. lwIP delivers received chains, the peer's close,
acknowledgements and polls as long as the callbacks are registered, and answers `tcp_sndbuf`
and `tcp_write` as it likes. `echoMachine` runs any sequence of them. The log holds what the
connection has seen, each call with the buffer it is about.

Every buffer received before the peer's close is echoed, in order, or still chained on
`es->p`; it is written, freed and acknowledged once, and the server closes the connection
once, when nothing is left to send (`echoes`).
-/

namespace Gd32Firmware

/-- The states of the server. -/
inductive EsState where
  | none
  | accepted
  | received
  | closing
  deriving DecidableEq, Repr

/-- A `struct tcpecho_raw_state`. Nothing reads the other fields. -/
structure EchoState where
  state : EsState
  p : Option ℕ

/-- What happened on the connection. -/
inductive EchoCall where
  | arrived (p : ℕ) (payload : Payload)
  | peerClosed
  | wrote (p : ℕ) (payload : Payload)
  | freed (p : ℕ)
  | recved (p : ℕ) (len : UInt16)
  | closed (state : EsState) (p : Option ℕ)

/-- The connection, with the argument of its callbacks. -/
structure Echo where
  heap : PbufHeap
  arg : Option EchoState
  callbacks : Bool
  log : List EchoCall

/-- `tcp_sndbuf` and `tcp_write` in each round of a loop. -/
abbrev SendAnswers := ℕ → UInt16 × ErrT

def Echo.add (s : Echo) (calls : List EchoCall) : Echo :=
  { s with log := s.log ++ calls }

/-- What is chained on `es->p`. -/
def Echo.p (s : Echo) : Option ℕ :=
  s.arg.bind EchoState.p

/-- `pbuf_free`, logged. -/
def Echo.free (s : Echo) (p : ℕ) : Option Echo := do
  let (heap, freed) ← pbufFree s.heap p
  some ({ s with heap := heap }.add (freed.map .freed))

/-! ## The server -/

def tcpechoRawFree (s : Echo) (es : EchoState) : Option Echo :=
  match es.p with
  | some p => s.free p
  | none => some s

/-- The callbacks are unregistered, so that no event is delivered any more. -/
def tcpechoRawClose (s : Echo) (es : EchoState) : Option Echo :=
  tcpechoRawFree ({ s with arg := none, callbacks := false }.add [.closed es.state es.p]) es

/-- The loop of `tcpecho_raw_send`, from its round `k`. -/
def tcpechoRawSendLoop (answers : SendAnswers) : ℕ → ℕ → Echo → EchoState → Option Echo
  | 0, _, _, _ => none
  | fuel + 1, k, s, es =>
    match es.p with
    | none => some { s with arg := some es }
    | some ptr => do
      let b ← s.heap.cells ptr
      let (sndbuf, wrErr) := answers k
      if b.payload.len ≤ sndbuf then
        match wrErr with
        | .ok =>
          let heap ← pbufRef s.heap b.next
          let s ← ({ s with heap := heap }.add [.wrote ptr b.payload]).free ptr
          tcpechoRawSendLoop answers fuel (k + 1) (s.add [.recved ptr b.payload.len])
            { es with p := b.next }
        | .mem => some { s with arg := some { es with p := some ptr } }
        | _ => some { s with arg := some es }
      else some { s with arg := some es }

/-- `tcpecho_raw_send`. Every round but the last frees a buffer. -/
def tcpechoRawSend (s : Echo) (es : EchoState) (answers : SendAnswers) : Option Echo :=
  tcpechoRawSendLoop answers (s.heap.size + 1) 0 s es

/-- `tcpecho_raw_poll`. -/
def tcpechoRawPoll (s : Echo) (answers : SendAnswers) : Option (Echo × ErrT) :=
  match s.arg with
  | some es => do
    let s ←
      if es.p.isSome then tcpechoRawSend s es answers
      else if es.state = .closing then tcpechoRawClose s es
      else some s
    some (s, .ok)
  | none => some ({ s with callbacks := false }, .abrt)

/-- `tcpecho_raw_sent`. -/
def tcpechoRawSent (s : Echo) (answers : SendAnswers) : Option (Echo × ErrT) := do
  let es ← s.arg
  let s ←
    if es.p.isSome then tcpechoRawSend s es answers
    else if es.state = .closing then tcpechoRawClose s es
    else some s
  some (s, .ok)

/-- `tcpecho_raw_recv`. -/
def tcpechoRawRecv (s : Echo) (p : Option ℕ) (err : ErrT) (answers : SendAnswers) :
    Option (Echo × ErrT) := do
  let es ← s.arg
  match p with
  | none =>
    let es := { es with state := .closing }
    let s ← if es.p.isNone then tcpechoRawClose s es else tcpechoRawSend s es answers
    some (s, .ok)
  | some p =>
    if err ≠ .ok then
      let s ← s.free p
      some (s, err)
    else if es.state = .accepted then
      let s ← tcpechoRawSend s { state := .received, p := some p } answers
      some (s, .ok)
    else if es.state = .received then
      match es.p with
      | none =>
        let s ← tcpechoRawSend s { es with p := some p } answers
        some (s, .ok)
      | some ptr =>
        let heap ← pbufCat s.heap ptr p
        some ({ s with heap := heap }, .ok)
    else
      let b ← s.heap.cells p
      let s ← (s.add [.recved p b.totLen]).free p
      some (s, .ok)

/-! ## Its runs -/

/-- What lwIP delivers. A chain has at least one buffer. -/
inductive EchoOp where
  | recv (w : Payload) (ws : List Payload) (answers : SendAnswers)
  | peerClose (answers : SendAnswers)
  | sent (answers : SendAnswers)
  | poll (answers : SendAnswers)

/-- A chain arrives. -/
def Echo.arrive (s : Echo) (ws : List Payload) : Echo :=
  { s with heap := (allocChain s.heap ws).1 }.add
    ((addressed s.heap.size ws).map fun (p, w) => .arrived p w)

/-- A callback that lwIP calls. -/
def echoCallback (s : Echo) : EchoOp → Option (Echo × ErrT)
  | .recv w ws answers =>
    tcpechoRawRecv (s.arrive (w :: ws)) (allocChain s.heap (w :: ws)).2 .ok answers
  | .peerClose answers => tcpechoRawRecv (s.add [.peerClosed]) none .ok answers
  | .sent answers => tcpechoRawSent s answers
  | .poll answers => tcpechoRawPoll s answers

/-- A connection whose callbacks are registered gets the event. The answer is what the
callback returns; there is none if it faults. -/
def echoMachine : Machine Echo EchoOp (Option ErrT) where
  step s op :=
    if s.callbacks then
      match echoCallback s op with
      | some (s, err) => (s, some err)
      | none => (s, none)
    else (s, some .ok)

/-- `tcpecho_raw_accept` on a new connection. -/
def echoStart : Echo where
  heap := { cells := fun _ => none, size := 0 }
  arg := some { state := .accepted, p := none }
  callbacks := true
  log := []

/-- The connection after the events. -/
def echoRun (ops : List EchoOp) : Echo :=
  echoMachine.run echoStart ops

/-- The buffers received before the peer's close. -/
def received : List EchoCall → List (ℕ × Payload)
  | [] => []
  | .peerClosed :: _ => []
  | .arrived p w :: log => (p, w) :: received log
  | _ :: log => received log

/-- The bytes that `tcp_write` accepted. -/
def accepted (log : List EchoCall) : List UInt8 :=
  log.flatMap fun
    | .wrote _ w => w.bytes
    | _ => []

/-- The calls of `tcpecho_raw_close`. -/
def closes (log : List EchoCall) : List (EsState × Option ℕ) :=
  log.filterMap fun
    | .closed state p => some (state, p)
    | _ => none

/-- The buffer a call is about. -/
def EchoCall.subject : EchoCall → Option ℕ
  | .arrived p _ | .wrote p _ | .freed p | .recved p _ => some p
  | .peerClosed | .closed .. => none

/-- What happened to one buffer. -/
def about (p : ℕ) (log : List EchoCall) : List EchoCall :=
  log.filter fun c => c.subject = some p

/-- What `tcp_recved` was passed for one buffer. -/
def acknowledged (p : ℕ) (log : List EchoCall) : ℕ :=
  ((about p log).map fun
    | .recved _ len => len.toNat
    | _ => 0).sum

/-- A buffer is echoed by one write, freed once, and acknowledged. -/
def echoCalls (x : ℕ × Payload) : List EchoCall :=
  [.wrote x.1 x.2, .freed x.1, .recved x.1 x.2.len]

/-- The server echoes : `waiting` is chained on `es->p`. -/
structure Echoes (s : Echo) (waiting : List (ℕ × Payload)) : Prop where
  chained : IsChain s.heap s.p waiting
  bytes : accepted s.log ++ waiting.flatMap (fun x => x.2.bytes) =
    (received s.log).flatMap fun x => x.2.bytes
  acknowledged : ((received s.log).map fun x => acknowledged x.1 s.log).sum =
    (accepted s.log).length
  kept : ∀ x ∈ waiting, about x.1 s.log = [.arrived x.1 x.2]
  released : ∀ x ∈ received s.log, x ∉ waiting →
    about x.1 s.log = .arrived x.1 x.2 :: echoCalls x
  closes : closes s.log = [] ∨ closes s.log = [(.closing, none)]

/-! ## The log -/

@[simp] theorem received_arrivals (xs : List (ℕ × Payload)) :
    received (xs.map fun (p, w) => .arrived p w) = xs := by
  induction xs with
  | nil => rfl
  | cons x xs ih => simp [received, ih]

@[simp] theorem closes_arrivals (xs : List (ℕ × Payload)) :
    closes (xs.map fun (p, w) => .arrived p w) = [] := by
  simp [closes, List.filterMap_map]

theorem received_append (log calls : List EchoCall) (hopen : .peerClosed ∉ log) :
    received (log ++ calls) = received log ++ received calls := by
  induction log with
  | nil => rfl
  | cons c log ih =>
    rw [List.mem_cons, not_or] at hopen
    cases c <;> simp_all [received]

/-- Nothing that follows the peer's close is received. -/
theorem received_append_of_mem (log calls : List EchoCall) (hclosed : .peerClosed ∈ log) :
    received (log ++ calls) = received log := by
  induction log with
  | nil => simp at hclosed
  | cons c log ih => cases c <;> simp_all [received]

theorem received_append_nil (log : List EchoCall) {calls : List EchoCall}
    (hcalls : received calls = []) : received (log ++ calls) = received log := by
  by_cases hclosed : .peerClosed ∈ log
  · exact received_append_of_mem log calls hclosed
  · rw [received_append log calls hclosed, hcalls, List.append_nil]

@[simp] theorem accepted_append (log calls : List EchoCall) :
    accepted (log ++ calls) = accepted log ++ accepted calls :=
  List.flatMap_append

@[simp] theorem closes_append (log calls : List EchoCall) :
    closes (log ++ calls) = closes log ++ closes calls :=
  List.filterMap_append

@[simp] theorem about_append (p : ℕ) (log calls : List EchoCall) :
    about p (log ++ calls) = about p log ++ about p calls :=
  List.filter_append ..

theorem about_eq_nil {p : ℕ} {calls : List EchoCall}
    (h : ∀ c ∈ calls, c.subject ≠ some p) : about p calls = [] := by
  simpa [about] using h

@[simp] theorem about_echoCalls (x : ℕ × Payload) : about x.1 (echoCalls x) = echoCalls x := by
  simp [about, echoCalls, EchoCall.subject]

theorem about_echoCalls_of_ne {p : ℕ} {x : ℕ × Payload} (hne : p ≠ x.1) :
    about p (echoCalls x) = [] := by
  simp [about, echoCalls, EchoCall.subject, hne.symm]

/-- The arrival of different buffers is one arrival for each. -/
theorem about_arrivals {xs : List (ℕ × Payload)} (hnodup : (xs.map Prod.fst).Nodup)
    {x : ℕ × Payload} (hx : x ∈ xs) :
    about x.1 (xs.map fun (p, w) => .arrived p w) = [.arrived x.1 x.2] := by
  induction xs with
  | nil => simp at hx
  | cons y xs ih =>
    rw [List.map_cons, List.nodup_cons] at hnodup
    have hother : ∀ z ∈ xs, z.1 ≠ y.1 := fun z hz heq =>
      hnodup.1 (List.mem_map.2 ⟨z, hz, heq⟩)
    obtain rfl | hx := List.mem_cons.1 hx
    · have hrest : about x.1 (xs.map fun (p, w) => .arrived p w) = [] := by
        refine about_eq_nil fun c hc => ?_
        obtain ⟨z, hz, rfl⟩ := List.mem_map.1 hc
        simpa [EchoCall.subject] using hother z hz
      rw [List.map_cons, ← List.singleton_append, about_append, hrest]
      simp [about, EchoCall.subject]
    · rw [List.map_cons, ← List.singleton_append, about_append, ih hnodup.2 hx]
      simp [about, EchoCall.subject, (hother x hx).symm]

/-! ## What the server keeps -/

/-- The buffers in `echoed` are done with, those in `waiting` untouched. -/
structure EchoLog (h : PbufHeap) (log : List EchoCall) (echoed waiting : List (ℕ × Payload)) :
    Prop where
  order : received log = echoed ++ waiting
  bytes : accepted log = echoed.flatMap fun x => x.2.bytes
  done : ∀ x ∈ echoed, about x.1 log = .arrived x.1 x.2 :: echoCalls x
  kept : ∀ x ∈ waiting, about x.1 log = [.arrived x.1 x.2]
  fresh : ∀ p, h.size ≤ p → about p log = []
  distinct : Distinct h waiting

variable {h h' : PbufHeap} {log : List EchoCall} {echoed waiting : List (ℕ × Payload)}

/-- Calls about new buffers only, none of which counts as received. -/
theorem EchoLog.frame (hlog : EchoLog h log echoed waiting) {calls : List EchoCall}
    (hreceived : received (log ++ calls) = received log) (haccepted : accepted calls = [])
    (hsize : h.size ≤ h'.size)
    (hsubject : ∀ c ∈ calls, ∀ p, c.subject = some p → h.size ≤ p ∧ p < h'.size) :
    EchoLog h' (log ++ calls) echoed waiting := by
  have hold : ∀ p, about p log ≠ [] → about p calls = [] := by
    intro p hp
    exact about_eq_nil fun c hc heq => hp (hlog.fresh p (hsubject c hc p heq).1)
  refine ⟨hreceived.trans hlog.order, ?_, fun x hx => ?_, fun x hx => ?_, fun p hp => ?_,
    hlog.distinct.nodup, fun x hx => (hlog.distinct.lt x hx).trans_le hsize⟩
  · rw [accepted_append, haccepted, List.append_nil, hlog.bytes]
  · rw [about_append, hold x.1 (by simp [hlog.done x hx]), List.append_nil, hlog.done x hx]
  · rw [about_append, hold x.1 (by simp [hlog.kept x hx]), List.append_nil, hlog.kept x hx]
  · rw [about_append, hlog.fresh p (hsize.trans hp), List.nil_append]
    exact about_eq_nil fun c hc heq => absurd (hsubject c hc p heq).2 (by omega)

theorem EchoLog.congr (hlog : EchoLog h log echoed waiting) (hsize : h'.size = h.size) :
    EchoLog h' log echoed waiting :=
  { hlog with
    fresh := fun p hp => hlog.fresh p (hsize ▸ hp)
    distinct := ⟨hlog.distinct.nodup, fun x hx => hsize ▸ hlog.distinct.lt x hx⟩ }

/-- One round of the loop of `tcpecho_raw_send`. -/
theorem EchoLog.echo {x : ℕ × Payload} (hlog : EchoLog h log echoed (x :: waiting))
    (hsize : h'.size = h.size) :
    EchoLog h' (log ++ echoCalls x) (echoed ++ [x]) waiting := by
  have hx : about x.1 log = [.arrived x.1 x.2] := hlog.kept x List.mem_cons_self
  obtain ⟨hnew, hd⟩ := hlog.distinct.of_cons
  refine ⟨?_, ?_, fun y hy => ?_, fun y hy => ?_, fun p hp => ?_, hd.nodup, fun y hy => ?_⟩
  · rw [received_append_nil _ rfl, hlog.order]
    simp
  · rw [accepted_append, hlog.bytes, List.flatMap_append]
    rfl
  · rw [about_append]
    obtain hy | hy := List.mem_append.1 hy
    · -- a buffer that was already echoed is another one
      have hne : y.1 ≠ x.1 := by
        intro heq
        have := (hlog.done y hy).symm.trans (heq ▸ hx)
        simp [echoCalls] at this
      rw [about_echoCalls_of_ne hne, List.append_nil, hlog.done y hy]
    · obtain rfl := List.mem_singleton.1 hy
      rw [hx, about_echoCalls, List.singleton_append]
  · have hne : y.1 ≠ x.1 := fun heq => hnew (List.mem_map.2 ⟨y, hy, heq⟩)
    rw [about_append, about_echoCalls_of_ne hne, List.append_nil,
      hlog.kept y (List.mem_cons_of_mem x hy)]
  · have hlt := hlog.distinct.lt x List.mem_cons_self
    rw [about_append, hlog.fresh p (hsize ▸ hp), about_echoCalls_of_ne (by omega)]
    rfl
  · exact hsize ▸ hd.lt y hy

/-- A chain that arrives before the peer's close. -/
theorem EchoLog.arrive (hlog : EchoLog h log echoed waiting) (ws : List Payload)
    (hopen : .peerClosed ∉ log) (hsize : h'.size = h.size + ws.length) :
    EchoLog h' (log ++ (addressed h.size ws).map fun (p, w) => .arrived p w) echoed
      (waiting ++ addressed h.size ws) := by
  have hnodup := (distinct_addressed hsize.ge).nodup
  have hother : ∀ p, (∀ x ∈ addressed h.size ws, x.1 ≠ p) →
      about p ((addressed h.size ws).map fun (p, w) => .arrived p w) = [] := by
    intro p hp
    refine about_eq_nil fun c hc => ?_
    obtain ⟨x, hx, rfl⟩ := List.mem_map.1 hc
    simpa [EchoCall.subject] using hp x hx
  -- a buffer that something is known of is an old one
  have hold : ∀ p, about p log ≠ [] → ∀ x ∈ addressed h.size ws, x.1 ≠ p := by
    rintro p hp x hx rfl
    exact hp (hlog.fresh x.1 (mem_addressed hx).1)
  refine ⟨?_, ?_, fun x hx => ?_, fun x hx => ?_, fun p hp => ?_, ?_, fun x hx => ?_⟩
  · rw [received_append _ _ hopen, received_arrivals, hlog.order, List.append_assoc]
  · rw [accepted_append, hlog.bytes]
    simp [accepted, List.flatMap_map]
  · have hx' := hlog.done x hx
    rw [about_append, hother x.1 (hold x.1 (by simp [hx'])), List.append_nil, hx']
  · rw [about_append]
    obtain hx | hx := List.mem_append.1 hx
    · have hx' := hlog.kept x hx
      rw [hother x.1 (hold x.1 (by simp [hx'])), List.append_nil, hx']
    · rw [hlog.fresh x.1 (mem_addressed hx).1, about_arrivals hnodup hx, List.nil_append]
  · rw [about_append, hlog.fresh p (by omega), List.nil_append]
    exact hother p fun x hx heq => by have := mem_addressed hx; omega
  · rw [List.map_append, List.nodup_append]
    refine ⟨hlog.distinct.nodup, hnodup, fun a ha b hb => ?_⟩
    obtain ⟨x, hx, rfl⟩ := List.mem_map.1 ha
    obtain ⟨y, hy, rfl⟩ := List.mem_map.1 hb
    have := hlog.distinct.lt x hx
    have := mem_addressed hy
    omega
  · rw [hsize]
    obtain hx | hx := List.mem_append.1 hx
    · exact (hlog.distinct.lt x hx).trans_le (Nat.le_add_right ..)
    · exact (mem_addressed hx).2

/-! ## The callbacks -/

/-- A state of the server and what it says about the log. -/
def PeerState : EsState → List EchoCall → Prop
  | .none, _ => False
  | .accepted, log | .received, log => .peerClosed ∉ log
  | .closing, log => .peerClosed ∈ log

/-- The connection is open, with `waiting` chained on `es->p`. -/
structure Sending (h : PbufHeap) (log : List EchoCall) (es : EchoState)
    (echoed waiting : List (ℕ × Payload)) : Prop extends EchoLog h log echoed waiting where
  chain : IsChain h es.p waiting
  closes : closes log = []
  peer : PeerState es.state log
  empty : es.state = .accepted → es.p = none

/-- Between two callbacks : the connection is open, or closed with everything echoed. -/
inductive EchoInv (s : Echo) : Prop where
  | sending (es : EchoState) (echoed waiting : List (ℕ × Payload)) (callbacks : s.callbacks = true)
      (arg : s.arg = some es) (inv : Sending s.heap s.log es echoed waiting)
  | closed (echoed : List (ℕ × Payload)) (callbacks : s.callbacks = false) (arg : s.arg = none)
      (inv : EchoLog s.heap s.log echoed []) (closes : closes s.log = [(.closing, none)])

theorem isChain_none_iff {xs : List (ℕ × Payload)} : IsChain h none xs ↔ xs = [] := by
  cases xs <;> simp [IsChain]

theorem peerState_append {state : EsState} {log calls : List EchoCall} (hpeer : PeerState state log)
    (hcalls : .peerClosed ∉ calls) : PeerState state (log ++ calls) := by
  cases state <;> simp_all [PeerState]

/-- Sending keeps the connection open, whatever is accepted. -/
theorem tcpechoRawSendLoop_inv (answers : SendAnswers) (waiting : List (ℕ × Payload)) :
    ∀ {s : Echo} {es : EchoState} {echoed : List (ℕ × Payload)} {fuel k : ℕ},
      s.callbacks = true → Sending s.heap s.log es echoed waiting → waiting.length < fuel →
      ∃ s', tcpechoRawSendLoop answers fuel k s es = some s' ∧ EchoInv s' := by
  induction waiting with
  | nil =>
    intro s es echoed fuel k hcb hs hfuel
    obtain ⟨fuel, rfl⟩ := Nat.exists_eq_succ_of_ne_zero (by omega : fuel ≠ 0)
    have hp : es.p = none := hs.chain
    exact ⟨{ s with arg := some es }, by simp [tcpechoRawSendLoop, hp],
      .sending es echoed [] hcb rfl hs⟩
  | cons x waiting ih =>
    intro s es echoed fuel k hcb hs hfuel
    rw [List.length_cons] at hfuel
    obtain ⟨fuel, rfl⟩ := Nat.exists_eq_succ_of_ne_zero (by omega : fuel ≠ 0)
    obtain ⟨hp, b, hcell, hw, -, -⟩ := id hs.chain
    -- a round that accepts nothing is the last
    have hstop : EchoInv { s with arg := some es } :=
      .sending es echoed (x :: waiting) hcb rfl hs
    by_cases hlen : b.payload.len ≤ (answers k).1
    · by_cases hok : (answers k).2 = .ok
      · obtain ⟨h₁, h₂, href, hfree, hchain, hsize⟩ :=
          advance_chain hcell (hp ▸ hs.chain) hs.distinct
        have hs' : Sending h₂ (s.log ++ echoCalls x) { es with p := b.next }
            (echoed ++ [x]) waiting := by
          refine ⟨hs.toEchoLog.echo hsize, hchain, ?_, peerState_append hs.peer ?_, fun hacc => ?_⟩
          · rw [closes_append, hs.closes]
            rfl
          · simp [echoCalls]
          · simp [hs.empty hacc] at hp
        obtain ⟨s', hsend, hinv⟩ := ih (s := { s with heap := h₂, log := s.log ++ echoCalls x })
          (k := k + 1) hcb hs' (by omega : waiting.length < fuel)
        refine ⟨s', ?_, hinv⟩
        rw [hw] at hlen
        simpa [tcpechoRawSendLoop, hp, hcell, hlen, hok, href, Echo.free, Echo.add, hfree, hw,
          echoCalls] using hsend
      · refine ⟨{ s with arg := some es }, ?_, hstop⟩
        have hes : { es with p := some x.1 } = es := by rw [← hp]
        simp only [tcpechoRawSendLoop, hp, hcell, Option.bind_eq_bind, Option.bind_some,
          if_pos hlen]
        split
        · contradiction
        · rw [hes]
        · rfl
    · exact ⟨{ s with arg := some es }, by simp [tcpechoRawSendLoop, hp, hcell, hlen], hstop⟩

theorem tcpechoRawSend_inv (answers : SendAnswers) {s : Echo} {es : EchoState}
    (hcb : s.callbacks = true) (hs : Sending s.heap s.log es echoed waiting) :
    ∃ s', tcpechoRawSend s es answers = some s' ∧ EchoInv s' :=
  tcpechoRawSendLoop_inv answers waiting hcb hs (Nat.lt_succ_of_le hs.distinct.length_le)

/-- An empty chain is closed after the peer's close. -/
theorem tcpechoRawClose_inv {s : Echo} {es : EchoState}
    (hs : Sending s.heap s.log es echoed waiting) (hp : es.p = none)
    (hstate : es.state = .closing) :
    ∃ s', tcpechoRawClose s es = some s' ∧ EchoInv s' := by
  obtain rfl : waiting = [] := isChain_none_iff.1 (hp ▸ hs.chain)
  refine ⟨_, by simp [tcpechoRawClose, tcpechoRawFree, hp]; rfl, .closed echoed rfl rfl ?_ ?_⟩
  · refine hs.toEchoLog.frame (received_append_nil _ rfl) rfl le_rfl ?_
    simp [EchoCall.subject]
  · simp only [Echo.add, closes_append, hs.closes, hstate]
    rfl

/-- `tcpecho_raw_sent` and `tcpecho_raw_poll` do the same to an open connection. -/
theorem tcpechoRawSent_inv (answers : SendAnswers) {s : Echo} {es : EchoState}
    (hcb : s.callbacks = true) (harg : s.arg = some es)
    (hs : Sending s.heap s.log es echoed waiting) :
    ∃ s', tcpechoRawSent s answers = some (s', .ok) ∧
      tcpechoRawPoll s answers = some (s', .ok) ∧ EchoInv s' := by
  cases hp : es.p with
  | none =>
    by_cases hstate : es.state = .closing
    · obtain ⟨s', hclose, hinv⟩ := tcpechoRawClose_inv hs hp hstate
      exact ⟨s', by simp [tcpechoRawSent, harg, hp, hstate, hclose],
        by simp [tcpechoRawPoll, harg, hp, hstate, hclose], hinv⟩
    · exact ⟨s, by simp [tcpechoRawSent, harg, hp, hstate],
        by simp [tcpechoRawPoll, harg, hp, hstate], .sending es echoed waiting hcb harg hs⟩
  | some ptr =>
    obtain ⟨s', hsend, hinv⟩ := tcpechoRawSend_inv answers hcb hs
    exact ⟨s', by simp [tcpechoRawSent, harg, hp, hsend],
      by simp [tcpechoRawPoll, harg, hp, hsend], hinv⟩

/-- The peer closes the connection. -/
theorem tcpechoRawRecv_null (answers : SendAnswers) {s : Echo} {es : EchoState}
    (hcb : s.callbacks = true) (harg : s.arg = some es)
    (hs : Sending s.heap s.log es echoed waiting) :
    ∃ s', tcpechoRawRecv (s.add [.peerClosed]) none .ok answers = some (s', .ok) ∧
      EchoInv s' := by
  have hs' : Sending s.heap (s.log ++ [.peerClosed]) { es with state := .closing } echoed
      waiting := by
    have hlog : EchoLog s.heap (s.log ++ [.peerClosed]) echoed waiting :=
      hs.toEchoLog.frame (received_append_nil _ rfl) rfl le_rfl (by simp [EchoCall.subject])
    refine ⟨hlog, hs.chain, ?_, ?_, ?_⟩
    · rw [closes_append, hs.closes]
      rfl
    · simp [PeerState]
    · simp
  by_cases hp : es.p = none
  · obtain ⟨s', hclose, hinv⟩ := tcpechoRawClose_inv (s := s.add [.peerClosed]) hs' hp rfl
    exact ⟨s', by simp [tcpechoRawRecv, Echo.add, harg, hp] at hclose ⊢; simp [hclose], hinv⟩
  · obtain ⟨s', hsend, hinv⟩ := tcpechoRawSend_inv answers (s := s.add [.peerClosed]) hcb hs'
    exact ⟨s', by simp [tcpechoRawRecv, Echo.add, harg, hp] at hsend ⊢; simp [hsend], hinv⟩

@[simp] theorem Echo.arrive_arg (s : Echo) (ws : List Payload) : (s.arrive ws).arg = s.arg :=
  rfl

theorem Echo.arrive_size (s : Echo) (ws : List Payload) :
    (s.arrive ws).heap.size = s.heap.size + ws.length :=
  allocChain_size ws s.heap

theorem Echo.arrive_chain (s : Echo) (w : Payload) (ws : List Payload) :
    IsChain (s.arrive (w :: ws)).heap (some s.heap.size) (addressed s.heap.size (w :: ws)) :=
  allocChain_chain (w :: ws) s.heap

/-- A chain that arrives after the peer's close is acknowledged and freed. -/
theorem tcpechoRawRecv_closing (w : Payload) (ws : List Payload) (answers : SendAnswers)
    {s : Echo} {es : EchoState} (hcb : s.callbacks = true) (harg : s.arg = some es)
    (hs : Sending s.heap s.log es echoed waiting) (hstate : es.state = .closing) :
    ∃ s', tcpechoRawRecv (s.arrive (w :: ws)) (some s.heap.size) .ok answers =
      some (s', .ok) ∧ EchoInv s' := by
  have hsize := s.arrive_size (w :: ws)
  have hys := s.arrive_chain w ws
  obtain ⟨h', hfree, hsize', hframe⟩ := pbufFree_chain hys (distinct_addressed hsize.ge)
  obtain ⟨-, b, hcell, -⟩ := hys
  let calls : List EchoCall := (addressed s.heap.size (w :: ws)).map (fun (p, w) => .arrived p w) ++
    ([.recved s.heap.size b.totLen] ++
      ((addressed s.heap.size (w :: ws)).map Prod.fst).map .freed)
  have hnew : ∀ c ∈ calls, ∀ p, c.subject = some p →
      ∃ x ∈ addressed s.heap.size (w :: ws), x.1 = p := by
    intro c hc p hp
    simp only [calls, List.mem_append, List.mem_map, List.mem_singleton] at hc
    obtain ⟨x, hx, rfl⟩ | rfl | ⟨-, ⟨x, hx, rfl⟩, rfl⟩ := hc
    · exact ⟨x, hx, Option.some.inj hp⟩
    · exact ⟨_, List.mem_cons_self, Option.some.inj hp⟩
    · exact ⟨x, hx, Option.some.inj hp⟩
  have hclosed : .peerClosed ∈ s.log := by simpa [hstate, PeerState] using hs.peer
  have hlog : EchoLog h' (s.log ++ calls) echoed waiting := by
    refine hs.toEchoLog.frame (received_append_of_mem s.log calls hclosed) ?_ ?_ ?_
    · simp [calls, accepted, List.flatMap_map]
    · simp [hsize', hsize]
    · intro c hc p hp
      obtain ⟨x, hx, rfl⟩ := hnew c hc p hp
      obtain ⟨hle, hlt⟩ := mem_addressed hx
      exact ⟨hle, by rw [hsize', hsize]; exact hlt⟩
  refine ⟨{ s with heap := h', log := s.log ++ calls }, ?_, ?_⟩
  · simp only [Echo.arrive, Echo.add] at hcell hfree
    simp [tcpechoRawRecv, harg, hstate, hcell, Echo.free, Echo.add, hfree, calls, Echo.arrive]
  · refine .sending es echoed waiting hcb harg ⟨hlog, ?_, ?_, ?_, hs.empty⟩
    · refine hs.chain.congr waiting fun x hx => ?_
      have hlt := hs.distinct.lt x hx
      rw [hframe x.1 fun hmem => ?_]
      · exact allocChain_cells _ hlt
      · obtain ⟨y, hy, heq⟩ := List.mem_map.1 hmem
        have := mem_addressed hy
        omega
    · rw [closes_append, hs.closes]
      simp [calls, closes, List.filterMap_map]
    · exact peerState_append hs.peer (by simp [calls])

/-- A chain that arrives before is appended to what is waiting. -/
theorem tcpechoRawRecv_open (w : Payload) (ws : List Payload) (answers : SendAnswers)
    {s : Echo} {es : EchoState} (hcb : s.callbacks = true) (harg : s.arg = some es)
    (hs : Sending s.heap s.log es echoed waiting) (hstate : es.state ≠ .closing) :
    ∃ s', tcpechoRawRecv (s.arrive (w :: ws)) (some s.heap.size) .ok answers =
      some (s', .ok) ∧ EchoInv s' := by
  have hsize := s.arrive_size (w :: ws)
  have hys := s.arrive_chain w ws
  have hopen : .peerClosed ∉ s.log := by
    have hpeer := hs.peer
    cases hc : es.state <;> simp_all [PeerState]
  have hlog : EchoLog (s.arrive (w :: ws)).heap (s.arrive (w :: ws)).log echoed
      (waiting ++ addressed s.heap.size (w :: ws)) := hs.toEchoLog.arrive (w :: ws) hopen hsize
  have hopen' : .peerClosed ∉ (s.arrive (w :: ws)).log := by
    simp [Echo.arrive, Echo.add, hopen]
  have hcloses : closes (s.arrive (w :: ws)).log = [] := by
    simp [Echo.arrive, Echo.add, hs.closes]
  by_cases hp : es.p = none
  · obtain rfl : waiting = [] := isChain_none_iff.1 (hp ▸ hs.chain)
    have hsending : Sending (s.arrive (w :: ws)).heap (s.arrive (w :: ws)).log
        { state := .received, p := some s.heap.size } echoed (addressed s.heap.size (w :: ws)) :=
      ⟨hlog, hys, hcloses, hopen', by simp⟩
    obtain ⟨s', hsend, hinv⟩ := tcpechoRawSend_inv answers (s := s.arrive (w :: ws)) hcb hsending
    refine ⟨s', ?_, hinv⟩
    have hpeer := hs.peer
    cases hc : es.state <;> simp_all [PeerState, tcpechoRawRecv]
  · have hxs : IsChain (s.arrive (w :: ws)).heap es.p waiting :=
      hs.chain.congr waiting fun x hx => allocChain_cells _ (hs.distinct.lt x hx)
    have hreceived : es.state = .received := by
      have hpeer := hs.peer
      have hempty := hs.empty
      cases hc : es.state <;> simp_all [PeerState]
    obtain ⟨ptr, hptr⟩ := Option.ne_none_iff_exists'.1 hp
    obtain ⟨h', hcat, hchain, hsize'⟩ := pbufCat_chain (hptr ▸ hxs) hys hlog.distinct
    refine ⟨{ s.arrive (w :: ws) with heap := h' }, ?_, ?_⟩
    · simp [tcpechoRawRecv, harg, hreceived, hptr, hcat]
    · refine .sending es echoed _ hcb harg ⟨hlog.congr hsize', hptr ▸ hchain, hcloses, ?_, ?_⟩
      · rw [hreceived]
        exact hopen'
      · simp [hreceived]

/-! ## Every run -/

/-- Every callback returns, and keeps the invariant. -/
theorem echoCallback_inv {s : Echo} (hinv : EchoInv s) (hcb : s.callbacks = true) (op : EchoOp) :
    ∃ s', echoCallback s op = some (s', .ok) ∧ EchoInv s' := by
  obtain ⟨es, echoed, waiting, -, harg, hs⟩ | ⟨_, hcb', -, -, -⟩ := hinv
  · cases op with
    | recv w ws answers =>
      by_cases hstate : es.state = .closing
      · exact tcpechoRawRecv_closing w ws answers hcb harg hs hstate
      · exact tcpechoRawRecv_open w ws answers hcb harg hs hstate
    | peerClose answers => exact tcpechoRawRecv_null answers hcb harg hs
    | sent answers =>
      obtain ⟨s', hsent, -, hinv⟩ := tcpechoRawSent_inv answers hcb harg hs
      exact ⟨s', hsent, hinv⟩
    | poll answers =>
      obtain ⟨s', -, hpoll, hinv⟩ := tcpechoRawSent_inv answers hcb harg hs
      exact ⟨s', hpoll, hinv⟩
  · simp [hcb] at hcb'

theorem echoMachine_inv {s : Echo} (hinv : EchoInv s) (op : EchoOp) :
    (echoMachine.step s op).2 = some .ok ∧ EchoInv (echoMachine.step s op).1 := by
  by_cases hcb : s.callbacks = true
  · obtain ⟨s', hcall, hinv'⟩ := echoCallback_inv hinv hcb op
    simp [echoMachine, hcb, hcall, hinv']
  · simp [echoMachine, hcb, hinv]

theorem echoStart_inv : EchoInv echoStart := by
  refine .sending { state := .accepted, p := none } [] [] rfl rfl ⟨?_, rfl, rfl, ?_, fun _ => rfl⟩
  · exact ⟨rfl, rfl, by simp, by simp, fun _ _ => rfl, by simp, by simp⟩
  · simp [PeerState, echoStart]

theorem echoRun_inv (ops : List EchoOp) : EchoInv (echoRun ops) :=
  echoMachine.run_invariant (I := EchoInv) (fun _ op hinv => (echoMachine_inv hinv op).2) ops
    echoStart_inv

/-- What the log says of the bytes. -/
theorem EchoLog.accounts {s : Echo} {echoed waiting : List (ℕ × Payload)}
    (hlog : EchoLog s.heap s.log echoed waiting) (hchain : IsChain s.heap s.p waiting)
    (hcloses : closes s.log = [] ∨ closes s.log = [(.closing, none)]) : Echoes s waiting where
  chained := hchain
  bytes := by rw [hlog.bytes, hlog.order, List.flatMap_append]
  acknowledged := by
    have hdone : ∀ x ∈ echoed, acknowledged x.1 s.log = x.2.bytes.length := by
      intro x hx
      simp [acknowledged, hlog.done x hx, echoCalls]
    have hkept : ∀ x ∈ waiting, acknowledged x.1 s.log = 0 := by
      intro x hx
      simp [acknowledged, hlog.kept x hx]
    rw [hlog.bytes, hlog.order, List.map_append, List.sum_append, List.map_congr_left hdone,
      List.map_congr_left hkept]
    simp [List.length_flatMap]
  kept := hlog.kept
  released := by
    intro x hx hnot
    rw [hlog.order, List.mem_append] at hx
    exact hlog.done x (hx.resolve_right hnot)
  closes := hcloses

/-- Whatever lwIP delivers and however it answers, every callback returns `ERR_OK`, and the
bytes are echoed, acknowledged and freed in order, with at most one close. -/
theorem echoes (ops : List EchoOp) :
    (∃ waiting, Echoes (echoRun ops) waiting) ∧
      ∀ op, echoMachine.answer echoStart ops op = some .ok := by
  refine ⟨?_, fun op => (echoMachine_inv (echoRun_inv ops) op).1⟩
  cases echoRun_inv ops with
  | sending es echoed waiting hcb harg hs =>
    refine ⟨waiting, hs.toEchoLog.accounts ?_ (Or.inl hs.closes)⟩
    simpa [Echo.p, harg] using hs.chain
  | closed echoed hcb harg hlog hcloses =>
    refine ⟨[], hlog.accounts ?_ (Or.inr hcloses)⟩
    simp [Echo.p, harg, IsChain]

end Gd32Firmware
