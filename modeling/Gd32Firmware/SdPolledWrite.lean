import Gd32Firmware.SdLength

/-!
# The words of a polled write

The polling loop writes the buffer to the FIFO in bursts : eight words, or what is left when that
is less (`roundWords`). After `k` words the driver has counted `4 * k` bytes, so that the words
pushed are always the first `k` of the buffer, and what is left to say is how far `k` goes
(`SendsBuffer`). Every round that finds `TFH` leaves a note in the log (`tfhRounds`), and takes
`k` eight words further or to the end (`OnPace`).

Where the number of bytes is a multiple of four the count ends at the total. Where it is not, the
last word takes it beyond, the difference wraps, and the loop goes on with full bursts
(`roundWords_overshoot`). `writes_sendsBuffer_iff` says for which requests the buffer is sent as
it should be.
-/

namespace Gd32Firmware

open Program

/-! ## Words -/

/-- The words written to the FIFO, oldest first. -/
def pushes (log : List Event) : List UInt32 :=
  (log.filterMap fun
    | .push word => some word
    | _ => none).reverse

@[simp] theorem pushes_nil : pushes [] = [] :=
  rfl

@[simp] theorem pushes_push (word : UInt32) (log : List Event) :
    pushes (.push word :: log) = pushes log ++ [word] := by
  simp [pushes]

/-- The loop finds `TFH`. -/
def Event.seesTfh : Event → Bool
  | .tfhSeen => true
  | _ => false

/-- The rounds of the loop that have found `TFH`. -/
def tfhRounds (log : List Event) : ℕ :=
  log.countP Event.seesTfh

/-- The events that belong to the sending of words. -/
def Event.OfSending : Event → Prop
  | .push _ | .tfhSeen => True
  | _ => False

theorem tfhRounds_tfhSeen (log : List Event) :
    tfhRounds (.tfhSeen :: log) = tfhRounds log + 1 :=
  List.countP_cons_of_pos rfl

theorem sending_cons {e : Event} (he : ¬ e.OfSending) (log : List Event) :
    pushes (e :: log) = pushes log ∧ tfhRounds (e :: log) = tfhRounds log := by
  cases e with
  | push | tfhSeen => exact absurd trivial he
  | _ => exact ⟨rfl, rfl⟩

/-- The first words of a buffer. -/
def bufferWords (ram : ℕ → UInt32) (b n : ℕ) : List UInt32 :=
  (List.range n).map fun i => ram (b + i)

theorem bufferWords_succ (ram : ℕ → UInt32) (b n : ℕ) :
    bufferWords ram b (n + 1) = bufferWords ram b n ++ [ram (b + n)] := by
  simp [bufferWords, List.range_succ]

@[simp] theorem length_bufferWords (ram : ℕ → UInt32) (b n : ℕ) :
    (bufferWords ram b n).length = n := by
  simp [bufferWords]

/-- Fewer words are the beginning of more. -/
theorem bufferWords_mono (ram : ℕ → UInt32) (b : ℕ) {m n : ℕ} (h : m ≤ n) :
    bufferWords ram b m <+: bufferWords ram b n := by
  induction n, h using Nat.le_induction with
  | base => exact List.prefix_rfl
  | succ n _ ih => exact ih.trans (bufferWords_succ ram b n ▸ List.prefix_append _ _)

/-- The words that hold so many bytes. -/
def wordsOf (total : UInt32) : ℕ :=
  (total.toNat + 3) / 4

/-! ## A round -/

/-- The words of a round that finds `TFH`, when so many bytes are left. -/
def roundWords (rest : UInt32) : UInt32 :=
  if rest < 32 then rest / 4 + if rest % 4 = 0 then 0 else 1 else 8

theorem toNat_roundWords (rest : UInt32) :
    (roundWords rest).toNat = min (wordsOf rest) 8 := by
  have hlt : rest < 32 ↔ rest.toNat < 32 := UInt32.lt_iff_toNat_lt
  have hmod : rest % 4 = 0 ↔ rest.toNat % 4 = 0 := UInt32.toNat_inj.symm
  unfold roundWords wordsOf
  split_ifs with h hrest
  · rw [UInt32.toNat_add, UInt32.toNat_div]
    have := hlt.mp h
    have := hmod.mp hrest
    show (rest.toNat / 4 + 0) % 2 ^ 32 = _
    omega
  · rw [UInt32.toNat_add, UInt32.toNat_div]
    have := hlt.mp h
    have := hmod.not.mp hrest
    show (rest.toNat / 4 + 1) % 2 ^ 32 = _
    omega
  · have := hlt.not.mp h
    show 8 = _
    omega

/-- The bytes that the driver counts after so many words. -/
def bytesOf (k : ℕ) : UInt32 :=
  UInt32.ofNat (4 * k)

theorem bytesOf_add (k : ℕ) (n : UInt32) : bytesOf k + 4 * n = bytesOf (k + n.toNat) := by
  apply UInt32.toNat_inj.mp
  rw [bytesOf, bytesOf, UInt32.toNat_add, UInt32.toNat_mul, UInt32.toNat_ofNat',
    UInt32.toNat_ofNat']
  show (4 * k % 2 ^ 32 + 4 * n.toNat % 2 ^ 32) % 2 ^ 32 = 4 * (k + n.toNat) % 2 ^ 32
  omega

theorem toNat_sub_bytesOf (total : UInt32) (k : ℕ) :
    (total - bytesOf k).toNat = (2 ^ 32 - 4 * k % 2 ^ 32 + total.toNat) % 2 ^ 32 := by
  rw [bytesOf, UInt32.toNat_sub, UInt32.toNat_ofNat']

section Count

variable {total : UInt32} {k : ℕ}

/-- Without a part of a word the rounds end at the total. -/
theorem roundWords_le (hfour : total.toNat % 4 = 0) (hk : k ≤ wordsOf total) :
    k + (roundWords (total - bytesOf k)).toNat ≤ wordsOf total := by
  have hlt := total.toNat_lt
  have hrest := toNat_sub_bytesOf total k
  rw [toNat_roundWords]
  unfold wordsOf at hk ⊢
  omega

/-- A round goes on by a burst, or to the last word. -/
theorem le_roundWords {i : ℕ} (hk : min (8 * i) (wordsOf total) ≤ k) :
    min (8 * (i + 1)) (wordsOf total) ≤ k + (roundWords (total - bytesOf k)).toNat := by
  have hlt := total.toNat_lt
  have hrest := toNat_sub_bytesOf total k
  rw [toNat_roundWords]
  unfold wordsOf at hk ⊢
  omega

/-- After a part of a word the difference wraps. -/
theorem roundWords_overshoot (hfour : total.toNat % 4 ≠ 0) (hk : wordsOf total ≤ k) :
    wordsOf total < k + (roundWords (total - bytesOf k)).toNat := by
  rcases hk.lt_or_eq with hk | rfl
  · omega
  have hlt := total.toNat_lt
  have hrest := toNat_sub_bytesOf total (wordsOf total)
  rw [toNat_roundWords]
  unfold wordsOf at hrest ⊢
  omega

end Count

/-- How far the words have come after so many rounds that found `TFH`. -/
structure OnPace (total : UInt32) (rounds k : ℕ) : Prop where
  le : min (8 * rounds) (wordsOf total) ≤ k
  within : total.toNat % 4 = 0 → k ≤ wordsOf total

theorem OnPace.start (total : UInt32) : OnPace total 0 0 :=
  ⟨Nat.min_le_left _ _, fun _ => Nat.zero_le _⟩

/-- A round that is over, -/
theorem OnPace.round {total : UInt32} {rounds k : ℕ} (h : OnPace total rounds k) :
    OnPace total (rounds + 1) (k + (roundWords (total - bytesOf k)).toNat) :=
  ⟨le_roundWords h.le, fun hfour => roundWords_le hfour (h.within hfour)⟩

/-- and one that is cut off. -/
theorem OnPace.cut {total : UInt32} {rounds k j : ℕ} (h : OnPace total rounds k) (hk : k ≤ j)
    (hj : j ≤ k + (roundWords (total - bytesOf k)).toNat) : OnPace total rounds j :=
  ⟨h.le.trans hk, fun hfour => hj.trans (h.round.within hfour)⟩

/-! ## What is sent -/

/-- The words are the first of the buffer, as many as so many rounds have to push. -/
def Filled (ram : ℕ → UInt32) (b : ℕ) (total : UInt32) (rounds : ℕ) (words : List UInt32) :
    Prop :=
  ∃ k, OnPace total rounds k ∧ words = bufferWords ram b k

section Filled

variable {ram : ℕ → UInt32} {b : ℕ} {total : UInt32} {rounds : ℕ} {words : List UInt32}

theorem Filled.pred (h : Filled ram b total rounds words) :
    Filled ram b total (rounds - 1) words := by
  obtain ⟨k, hk, hwords⟩ := h
  have hle := hk.le
  exact ⟨k, ⟨by omega, hk.within⟩, hwords⟩

/-- Without a part of a word they keep to the buffer. -/
theorem Filled.inOrder (h : Filled ram b total rounds words) (hfour : total.toNat % 4 = 0) :
    words <+: bufferWords ram b (wordsOf total) := by
  obtain ⟨k, hk, rfl⟩ := h
  exact bufferWords_mono ram b (hk.within hfour)

/-- After enough rounds the buffer is among them. -/
theorem Filled.complete (h : Filled ram b total rounds words) (hn : wordsOf total ≤ 8 * rounds) :
    bufferWords ram b (wordsOf total) <+: words := by
  obtain ⟨k, hk, rfl⟩ := h
  have hle := hk.le
  exact bufferWords_mono ram b (by omega)

end Filled

/-- What the sending of a buffer depends on. -/
structure SendState where
  ram : ℕ → UInt32
  transmode : UInt32
  cardtype : CardType
  total : UInt32
  pushed : List UInt32
  rounds : ℕ

def World.sendState (w : World) : SendState :=
  ⟨w.ram, w.drv.transmode, w.drv.cardtype, w.drv.totalnumberBytes, pushes w.log,
    tfhRounds w.log⟩

theorem World.sendState_note {w : World} {e : Event} (he : ¬ e.OfSending) :
    (w.note e).sendState = w.sendState := by
  rw [sendState, note_log, (sending_cons he w.log).1, (sending_cons he w.log).2]
  rfl

theorem World.sendState_setDrv {w : World} {f : Driver → Driver}
    (h : w.drv.HandlerWrote (f w.drv)) : (w.setDrv f).sendState = w.sendState := by
  rw [sendState, setDrv_drv, h]
  rfl

theorem not_ofSending_of_ofHandler {e : Event} (he : e.OfHandler) : ¬ e.OfSending := by
  cases e with
  | push | tfhSeen => exact absurd he id
  | _ => exact id

section Keeping

variable {X : SendState → Prop}

theorem holds_note {w : World} {e : Event} (he : ¬ e.OfSending) (h : X w.sendState) :
    X (w.note e).sendState :=
  (World.sendState_note he).symm ▸ h

theorem handlerKeeps_sendState : HandlerKeeps fun w => X w.sendState where
  observe s _ w h := holds_note (w := w) (e := .sample s) id h
  clear _ _ h := h
  stop _ h := h
  event _ _ he h := holds_note (not_ofSending_of_ofHandler he) h
  drv _ w hf h := (World.sendState_setDrv (hf w.drv)).symm ▸ h

theorem keepingSetUp_sendState : KeepingSetUp fun w => X w.sendState where
  access := handlerKeeps_sendState.access
  sdio _ _ _ h := h
  setUp s _ h := holds_note (e := .set s) id h

/-- No command pushes a word. -/
theorem keepingLink_sendState : KeepingLink (fun _ _ => True) fun w => X w.sendState where
  access := handlerKeeps_sendState.access
  plainSet s _ _ h := holds_note (e := .set s) id h
  sdio _ _ _ h := h
  clear _ _ h := h
  plain _ _ _ := trivial
  cmd c _ _ h := holds_note (e := .cmd c) id h
  taken index _ _ _ h := holds_note (e := .taken index) id h
  accepted index _ _ _ h := holds_note (e := .accepted index) id h

end Keeping

/-! ## The loop -/

/-- The first `k` words of the buffer have been pushed, in so many rounds. -/
def Sent (ram : ℕ → UInt32) (cardtype : CardType) (b : ℕ) (total : UInt32) (k rounds : ℕ)
    (w : World) : Prop :=
  w.sendState = ⟨ram, sdPollingMode, cardtype, total, bufferWords ram b k, rounds⟩

/-- What has been sent when a call returns with a status or stops without one. Without one the
last round may have been cut off. -/
def SentBy (ram : ℕ → UInt32) (b : ℕ) (total : UInt32) (o : Option SdError) (w : World) : Prop :=
  Filled ram b total (tfhRounds w.log - if o.isNone then 1 else 0) (pushes w.log)

section Loop

variable {ram : ℕ → UInt32} {cardtype : CardType} {b : ℕ} {total : UInt32} {k rounds : ℕ}

theorem sent_access : Keeps (Sent ram cardtype b total k rounds) access :=
  (handlerKeeps_sendState (X := (· = _))).access

theorem Sent.total_eq {w : World} (h : Sent ram cardtype b total k rounds w) :
    w.drv.totalnumberBytes = total :=
  congrArg SendState.total h

theorem Sent.ram_eq {w : World} (h : Sent ram cardtype b total k rounds w) : w.ram = ram :=
  congrArg SendState.ram h

/-- The next word is pushed. -/
theorem Sent.push {w : World} (h : Sent ram cardtype b total k rounds w) :
    Sent ram cardtype b total (k + 1) rounds (w.note (.push (ram (b + k)))) := by
  obtain ⟨hram, hmode, hcard, htotal, hpushed, hrounds⟩ := SendState.mk.inj h
  show (⟨w.ram, w.drv.transmode, w.drv.cardtype, w.drv.totalnumberBytes,
    pushes (.push _ :: w.log), tfhRounds w.log⟩ : SendState) = _
  rw [hram, hmode, hcard, htotal, hrounds, pushes_push, hpushed, bufferWords_succ]

/-- A round finds `TFH`. -/
theorem Sent.found {w : World} (h : Sent ram cardtype b total k rounds w) :
    Sent ram cardtype b total k (rounds + 1) (w.note .tfhSeen) := by
  obtain ⟨hram, hmode, hcard, htotal, hpushed, hrounds⟩ := SendState.mk.inj h
  show (⟨w.ram, w.drv.transmode, w.drv.cardtype, w.drv.totalnumberBytes,
    pushes w.log, tfhRounds (.tfhSeen :: w.log)⟩ : SendState) = _
  rw [hram, hmode, hcard, htotal, tfhRounds_tfhSeen, hrounds, hpushed]

/-- What has been sent on the way, -/
theorem Sent.sentBy {w : World} (h : Sent ram cardtype b total k rounds w)
    (hk : OnPace total rounds k) (o : Option SdError) : SentBy ram b total o w := by
  have hfilled : Filled ram b total (tfhRounds w.log) (pushes w.log) :=
    ⟨k, by rwa [show tfhRounds w.log = rounds from congrArg SendState.rounds h],
      congrArg SendState.pushed h⟩
  cases o with
  | some status => exact hfilled
  | none => exact hfilled.pred

/-- and inside a round. -/
theorem Sent.sentBy_cut {w : World} (h : Sent ram cardtype b total k (rounds + 1) w)
    (hk : OnPace total rounds k) : SentBy ram b total none w :=
  ⟨k, by rwa [show tfhRounds w.log = rounds + 1 from congrArg SendState.rounds h],
    congrArg SendState.pushed h⟩

/-- The words of a round are the next ones, also where it is cut off. -/
theorem sent_writeWords : ∀ n k, Triple (Sent ram cardtype b total k rounds)
    (writeWords n (b + k)) (fun _ => Sent ram cardtype b total (k + n) rounds) fun w =>
      ∃ j, k ≤ j ∧ j ≤ k + n ∧ Sent ram cardtype b total j rounds w
  | 0, _ => Triple.pure () fun _ h => h
  | n + 1, k => by
    refine Triple.bind (Q := fun w' w => Sent ram cardtype b total k rounds w ∧ w' = w)
      (Triple.get fun w h => ⟨h, rfl⟩) fun w' => ?_
    refine Triple.bind (Q := fun _ => Sent ram cardtype b total (k + 1) rounds) ?_ fun _ => ?_
    · refine Triple.bind (Q := fun _ w => Sent ram cardtype b total k rounds w ∧ w'.ram = ram) ?_
        fun _ => Triple.note fun w h => h.2 ▸ h.1.push
      refine Triple.strengthen (Triple.of_fact fun hram => (sent_access.weaken
        (fun _ w h => ⟨h, hram⟩) fun w h => ⟨k, le_rfl, by omega, h⟩)) fun w h => ⟨h.1, ?_⟩
      exact h.2 ▸ h.1.ram_eq
    · have h := (sent_writeWords n (k + 1)).weaken (fun _ _ h => h) fun w h =>
        h.imp fun j hj => (⟨by omega, by omega, hj.2.2⟩ : k ≤ j ∧ j ≤ k + (n + 1) ∧ _)
      rwa [show b + (k + 1) = b + k + 1 from rfl, show k + 1 + n = k + (n + 1) by omega] at h

/-- The words of a round, and the place after it. -/
theorem sent_words (hk : OnPace total rounds k) {n : UInt32}
    (hn : roundWords (total - bytesOf k) = n) :
    Triple (Sent ram cardtype b total k (rounds + 1)) (do
        writeWords n.toNat (b + k)
        pure (.inl (b + k + n.toNat, bytesOf k + 4 * n) : (ℕ × UInt32) ⊕ Unit))
      (fun r w => ∃ j rounds', OnPace total rounds' j ∧ r = .inl (b + j, bytesOf j) ∧
        Sent ram cardtype b total j rounds' w)
      (SentBy ram b total none) := by
  subst hn
  refine Triple.bind (Q := fun _ => Sent ram cardtype b total
    (k + (roundWords (total - bytesOf k)).toNat) (rounds + 1))
    ((sent_writeWords _ k).weaken (fun _ _ h => h) ?_) fun _ => ?_
  · rintro w ⟨j, hkj, hj, h⟩
    exact h.sentBy_cut (hk.cut hkj hj)
  · refine Triple.pure _ fun w h => ⟨_, _, hk.round, ?_, h⟩
    rw [bytesOf_add, Nat.add_assoc]

/-- The branches of a burst push the words of a round. -/
theorem sent_sendBurst (hk : OnPace total rounds k) :
    Triple (Sent ram cardtype b total k rounds) (sendBurst (b + k) (bytesOf k))
      (fun r w => ∃ j rounds', OnPace total rounds' j ∧ r = .inl (b + j, bytesOf j) ∧
        Sent ram cardtype b total j rounds' w)
      (SentBy ram b total none) := by
  refine Triple.bind (Q := fun _ => Sent ram cardtype b total k (rounds + 1))
    (Triple.note fun w h => h.found) fun _ => ?_
  refine Triple.bind (Q := fun drv w => Sent ram cardtype b total k (rounds + 1) w ∧
    drv.totalnumberBytes = total) (Triple.getDrv fun w h => ⟨h, h.total_eq⟩) fun drv => ?_
  refine Triple.of_fact fun htotal => ?_
  subst htotal
  refine Triple.ite (fun hrest => ?_) fun hrest => ?_
  · exact sent_words hk (if_pos hrest)
  · exact sent_words hk (n := 8) (if_neg hrest)

/-- A round pushes nothing, or the next words. -/
theorem sent_sendRound (hk : OnPace total rounds k) (ended : Flag) :
    Triple (Sent ram cardtype b total k rounds) (sendRound ended (b + k, bytesOf k))
      (fun r w => ∃ j rounds', OnPace total rounds' j ∧
        (r = .inr () ∨ r = .inl (b + j, bytesOf j)) ∧ Sent ram cardtype b total j rounds' w)
      (SentBy ram b total none) := by
  have hflag : ∀ mask, Triple (Sent ram cardtype b total k rounds) (sdioFlagGet access mask)
      (fun _ => Sent ram cardtype b total k rounds) (SentBy ram b total none) :=
    fun mask => (Keeps.sdioFlagGet sent_access).weaken (fun _ _ h => h) fun w h => h.sentBy hk none
  refine Triple.bind (hflag _) fun _ => Triple.ite (fun _ => ?_) fun _ => ?_
  · exact Triple.pure _ fun w h => ⟨k, rounds, hk, Or.inl rfl, h⟩
  refine Triple.bind (hflag _) fun _ => Triple.ite (fun _ => ?_) fun _ => ?_
  · refine (sent_sendBurst hk).imp ?_
    rintro r w ⟨j, rounds', hj, hr, h⟩
    exact ⟨j, rounds', hj, Or.inr hr, h⟩
  · exact Triple.pure _ fun w h => ⟨k, rounds, hk, Or.inr rfl, h⟩

/-- The loop pushes the words of its rounds. -/
theorem sent_pollSend (ended : Flag) (status : SdError) :
    Triple (Sent ram cardtype b total 0 0) (pollSend ended b)
      (fun _ => SentBy ram b total (some status)) (SentBy ram b total none) := by
  refine (Triple.sdLoop (J := fun loc w => ∃ k rounds, OnPace total rounds k ∧
    loc = (b + k, bytesOf k) ∧ Sent ram cardtype b total k rounds w) (fun loc => ?_) ?_
    (b, 0)).strengthen fun w h => ⟨0, 0, OnPace.start total, rfl, h⟩
  · refine Triple.forall fun k => Triple.forall fun rounds => ?_
    intro w hw
    obtain ⟨hk, rfl, h⟩ := hw
    refine ((sent_sendRound hk ended).imp fun r w hr => ?_) w h
    obtain ⟨j, rounds', hj, rfl | rfl, h⟩ := hr
    · exact h.sentBy hj (some status)
    · exact ⟨j, rounds', hj, rfl, h⟩
  · rintro loc w ⟨k, rounds, hk, -, h⟩
    exact h.sentBy hk none

end Loop

/-! ## Calls -/

/-- The flag that ends the polling loop when the data is over. -/
def Transfer.ended : Transfer → Flag
  | blockRead | blockWrite => .dtblkend
  | multiblocksRead | multiblocksWrite => .dtend

/-- The driver moves the data of these requests. -/
structure Transfer.Performs (t : Transfer) (blocksize : UInt16) (blocksnumber : UInt32) :
    Prop where
  valid : ValidBlocksize blocksize
  several : t.stop ≠ 0 →
    1 < blocksnumber ∧ ¬ sdMaxDataLength < blocksnumber * blocksize.toUInt32

instance (t : Transfer) (blocksize : UInt16) (blocksnumber : UInt32) :
    Decidable (t.Performs blocksize blocksnumber) :=
  decidable_of_iff (ValidBlocksize blocksize ∧ (t.stop ≠ 0 →
    1 < blocksnumber ∧ ¬ sdMaxDataLength < blocksnumber * blocksize.toUInt32))
    ⟨fun h => ⟨h.1, h.2⟩, fun h => ⟨h.valid, h.several⟩⟩

/-- What a call has sent when it returns with a status or stops without one : nothing, or what
the rounds of its data have pushed. -/
def Sends (t : Transfer) (ram : ℕ → UInt32) (b : ℕ) (blocksize : UInt16) (blocksnumber : UInt32)
    (o : Option SdError) (w : World) : Prop :=
  pushes w.log = [] ∧ tfhRounds w.log = 0 ∨
    t.Performs blocksize blocksnumber ∧ SentBy ram b (t.total blocksize blocksnumber) o w

/-- No word has been pushed. -/
def Unsent (ram : ℕ → UInt32) (cardtype : CardType) (w : World) : Prop :=
  ∃ total, w.sendState = ⟨ram, sdPollingMode, cardtype, total, [], 0⟩

section Run

variable {ram : ℕ → UInt32} {cardtype : CardType} {b : ℕ} {t : Transfer} {blocksize : UInt16}
  {blocksnumber : UInt32}

theorem Unsent.sends {w : World} (h : Unsent ram cardtype w) (o : Option SdError) :
    Sends t ram b blocksize blocksnumber o w :=
  h.elim fun _ h => Or.inl ⟨congrArg SendState.pushed h, congrArg SendState.rounds h⟩

theorem Unsent.total {w : World} (h : Unsent ram cardtype w) (n : UInt32) :
    Sent ram cardtype b n 0 0 (w.setDrv fun drv => { drv with totalnumberBytes := n }) := by
  obtain ⟨total, h⟩ := h
  show { w.sendState with total := n } = _
  rw [h]
  rfl

theorem keepingLink_unsent : KeepingLink (fun _ _ => True) (Unsent ram cardtype) :=
  keepingLink_sendState (X := fun s => ∃ total, s = ⟨ram, sdPollingMode, cardtype, total, [], 0⟩)

theorem keepingSetUp_unsent : KeepingSetUp (Unsent ram cardtype) :=
  keepingSetUp_sendState (X := fun s => ∃ total, s = ⟨ram, sdPollingMode, cardtype, total, [], 0⟩)

/-- A part of the call before its data. -/
theorem Unsent.ifOk {f rest : Program World SdError} (hf : Keeps (Unsent ram cardtype) f)
    (hrest : Triple (Unsent ram cardtype) rest
      (fun status => Sends t ram b blocksize blocksnumber (some status))
      (Sends t ram b blocksize blocksnumber none)) :
    Triple (Unsent ram cardtype) (ifOk f rest)
      (fun status => Sends t ram b blocksize blocksnumber (some status))
      (Sends t ram b blocksize blocksnumber none) :=
  Triple.ifOk (hf.weaken (fun _ _ h => h) fun _ h => h.sends none) hrest
    fun status _ _ h => h.sends (some status)

/-- What follows the polling loop pushes no word. -/
theorem keepingLink_sentBy {total : UInt32} {o : Option SdError} :
    KeepingLink (fun _ _ => True) (SentBy ram b total o) :=
  keepingLink_sendState (X := fun s => Filled ram b total
    (s.rounds - if o.isNone then 1 else 0) s.pushed)

/-- A part of the call after its rounds. -/
theorem SentBy.ends {total : UInt32} {m : Program World SdError} {status : SdError}
    (hm : Keeps (SentBy ram b total (some status)) m) :
    Triple (SentBy ram b total (some status)) m (fun status => SentBy ram b total (some status))
      (SentBy ram b total none) :=
  hm.weaken (fun _ _ h => h) fun _ h => Filled.pred h

/-- The data of a write is sent in the rounds of its loop. -/
theorem sent_data {total : UInt32} (blocksize : UInt16) (hwrite : t.isRead = false) :
    Triple (Sent ram cardtype b total 0 0) (t.data b blocksize)
      (fun status => SentBy ram b total (some status)) (SentBy ram b total none) := by
  have hmode : ∀ w, Sent ram cardtype b total 0 0 w → w.drv.transmode = sdPollingMode :=
    fun w h => congrArg SendState.transmode h
  have hlink : KeepingLink (fun _ _ => True) (SentBy ram b total (some .ok)) :=
    keepingLink_sentBy
  cases t with
  | blockRead => exact nomatch hwrite
  | multiblocksRead => exact nomatch hwrite
  | blockWrite =>
    refine Triple.polled hmode (Triple.bind (sent_pollSend .dtblkend .ok) fun _ => ?_)
    exact SentBy.ends (Keeps.ifOk (hlink.checkFaults _) hlink.finishWrite)
  | multiblocksWrite =>
    refine Triple.polled hmode (Triple.bind (sent_pollSend .dtend .ok) fun _ => SentBy.ends ?_)
    refine Keeps.ifOk (hlink.checkFaults _) (Keeps.ifOk hlink.stopPolled ?_)
    exact (hlink.flagClear _).bind fun _ => hlink.finishWrite

/-- The data command, what is set before the data, and the data. -/
theorem sends_writeCommand (hwrite : t.isRead = false)
    (hperforms : t.Performs blocksize blocksnumber) (index : UInt8) (argument stop : UInt32) :
    Triple (Unsent ram cardtype) (ifOk (commandR1 access index argument) do
        writeShared fun drv => { drv with stopcondition := stop }
        setDrv fun drv => { drv with totalnumberBytes := t.total blocksize blocksnumber }
        startData blocksize false
        t.data b blocksize)
      (fun status => Sends t ram b blocksize blocksnumber (some status))
      (Sends t ram b blocksize blocksnumber none) := by
  refine Unsent.ifOk (keepingLink_unsent.commandR1 trivial) ?_
  refine Triple.bind (Q := fun _ => Unsent ram cardtype) ((Triple.writeShared
    keepingLink_unsent.access fun _ h => h).weaken (fun _ _ h => h) fun _ h => h.sends none)
    fun _ => ?_
  refine Triple.bind (Q := fun _ => Sent ram cardtype b (t.total blocksize blocksnumber) 0 0)
    (Triple.setDrv fun _ h => h.total _) fun _ => ?_
  refine Triple.bind (Q := fun _ => Sent ram cardtype b (t.total blocksize blocksnumber) 0 0)
    (((keepingSetUp_sendState (X := (· = _))).startData _ _).weaken (fun _ _ h => h)
      fun w h => Or.inl ⟨congrArg SendState.pushed h, congrArg SendState.rounds h⟩) fun _ => ?_
  exact (sent_data blocksize hwrite).weaken (fun _ _ h => Or.inr ⟨hperforms, h⟩)
    fun _ h => Or.inr ⟨hperforms, h⟩

/-- A write sends the words of its rounds. -/
theorem run_sends (hwrite : t.isRead = false) (addr : UInt32) :
    Triple (Unsent ram cardtype) (t.run (some b) addr blocksize blocksnumber)
      (fun status => Sends t ram b (effectiveBlocksize cardtype blocksize) blocksnumber
        (some status))
      (Sends t ram b (effectiveBlocksize cardtype blocksize) blocksnumber none) := by
  have hlink : KeepingLink (fun _ _ => True) (Unsent ram cardtype) := keepingLink_unsent
  have hplain : ∀ {index : UInt8} {argument : UInt32}, Keeps (Unsent ram cardtype)
      (commandR1 access index argument) := hlink.commandR1 trivial
  have hsetup : ∀ {rest : ℕ → UInt32 → UInt16 → Program World SdError},
      (∀ addr', ValidBlocksize (effectiveBlocksize cardtype blocksize) →
        Triple (Unsent ram cardtype) (rest b addr' (effectiveBlocksize cardtype blocksize))
          (fun status => Sends t ram b (effectiveBlocksize cardtype blocksize)
            blocksnumber (some status))
          (Sends t ram b (effectiveBlocksize cardtype blocksize) blocksnumber none)) →
      Triple (Unsent ram cardtype) (transferSetup (some b) addr blocksize rest)
        (fun status => Sends t ram b (effectiveBlocksize cardtype blocksize)
          blocksnumber (some status))
        (Sends t ram b (effectiveBlocksize cardtype blocksize) blocksnumber none) := by
    refine fun hrest => keepingSetUp_unsent.setup (fun _ h => ⟨0, h.total (b := b) 0⟩)
      hlink.access (fun _ h => h) hlink.access (fun _ h => h)
      (fun _ h => h.sends _) (fun _ h => h.sends _) (fun _ h => h.sends _)
      (fun w h => (h.elim id fun h => h.elim id id : Unsent ram cardtype w).sends none) ?_
    rintro _ addr' blocksize' hvalid ⟨w, ⟨total, hw⟩, hb, -, rfl⟩
    obtain rfl := Option.some.inj hb
    rw [show w.drv.cardtype = cardtype from congrArg SendState.cardtype hw] at hvalid ⊢
    exact Unsent.ifOk hplain (hrest addr' hvalid)
  cases t with
  | blockRead => exact nomatch hwrite
  | multiblocksRead => exact nomatch hwrite
  | blockWrite =>
    rw [Transfer.run, sdBlockWrite]
    refine hsetup fun addr' hvalid => Triple.bind (Q := fun _ => Unsent ram cardtype)
      (Triple.getDrv fun _ h => h) fun drv => ?_
    refine Unsent.ifOk hplain (Unsent.ifOk hlink.waitReady ?_)
    exact sends_writeCommand (t := .blockWrite) rfl ⟨hvalid, fun h => absurd rfl h⟩ 24 addr' 0
  | multiblocksWrite =>
    rw [Transfer.run, sdMultiblocksWrite]
    refine hsetup fun addr' hvalid => Triple.bind (Q := fun _ => Unsent ram cardtype)
      (Triple.getDrv fun _ h => h) fun drv => ?_
    refine Unsent.ifOk hplain (Triple.ite (fun hlt => ?_) fun _ => ?_)
    · refine Triple.ite (fun _ => Triple.pure _ fun _ h => h.sends _) fun hle => ?_
      refine Unsent.ifOk (hlink.announceBlocks blocksnumber) ?_
      exact sends_writeCommand (t := .multiblocksWrite) rfl ⟨hvalid, fun _ => ⟨hlt, hle⟩⟩ 25
        addr' 1
    · exact hlink.finishWrite.weaken (fun _ _ h => h.sends _) fun _ h => h.sends _

end Run

/-! ## A card that takes words -/

/-- No flag of the mask is set, and so many words have been pushed. -/
structure Quiescent (D : Driver → Prop) (k : ℕ) (w : World) : Prop where
  stat : ∀ f ∈ w.sdio.stat, f ∉ sdioMaskIntcFlags
  drv : D w.drv
  pushed : k ≤ (pushes w.log).length

/-- How many words a loop can push : those of the buffer, and more after a part of a word. -/
def reach (total : UInt32) : ℕ :=
  wordsOf total + if total.toNat % 4 = 0 then 0 else 1

/-- How far a loop has come of which so many rounds are left, when every round finds `TFH`. -/
def Pace (total : UInt32) : ℕ → ℕ → Prop
  | 0, k => reach total ≤ k
  | n + 1, k => min (8 * (wordsOf total - n)) (wordsOf total) ≤ k

theorem Pace.round {total : UInt32} {n k : ℕ} (h : Pace total (n + 1) k) :
    Pace total n (k + (roundWords (total - bytesOf k)).toNat) := by
  cases n with
  | zero =>
    have hmin : min (8 * (wordsOf total - 0)) (wordsOf total) ≤ k := h
    have hk : wordsOf total ≤ k := by omega
    show reach total ≤ _
    unfold reach
    split_ifs with hfour
    · omega
    · exact roundWords_overshoot hfour hk
  | succ n =>
    have hk := le_roundWords h
    show min (8 * (wordsOf total - n)) (wordsOf total) ≤ _
    omega

namespace Quiescent

variable {D : Driver → Prop} {k : ℕ} {w : World} {total : UInt32} {ended : Flag}

theorem of_facing {R : UInt8 → (Fin 4 → UInt32) → Prop} (h : Facing [] D R w) :
    Quiescent D 0 w where
  stat f hf := absurd ((h.stat f).mp hf) List.not_mem_nil
  drv := h.drv
  pushed := Nat.zero_le _

theorem pushed_observe (h : Quiescent D k w) (s : Sample) :
    k ≤ (pushes (w.observe s []).log).length := by
  rw [World.observe_log, (sending_cons (e := .sample s) id w.log).1]
  exact h.pushed

/-- A sample with flags that follow the state of the peripheral. -/
theorem observe (h : Quiescent D k w) (flags : List Flag)
    (hflags : ∀ f ∈ flags, f ∉ sdioMaskIntcFlags) :
    Quiescent D k (w.observe { flags := flags } []) where
  stat f hf :=
    (World.mem_stat_observe.mp hf).elim (fun hf => absurd hf.2 (h.stat f hf.1)) (hflags f)
  drv := h.drv
  pushed := h.pushed_observe _

/-- A sample with flags of the mask. -/
theorem raise (h : Quiescent D k w) (flags : List Flag) (hflags : flags ⊆ sdioMaskIntcFlags) :
    Facing flags D AnyResponse (w.observe { flags := flags } []) where
  stat f := by
    rw [World.mem_stat_observe]
    exact or_iff_right fun hf => h.stat f hf.1 hf.2
  subset := hflags
  drv := h.drv
  response := trivial

theorem quiet : Can (Quiescent D k) access fun _ => Quiescent D k :=
  Can.instant instant_access (s := {}) rfl fun _ h => h.observe [] nofun

theorem writeWords : ∀ n k ptempbuff,
    Can (Quiescent D k) (writeWords n ptempbuff) fun _ => Quiescent D (k + n)
  | 0, _, _ => Can.pure _ fun _ h => h
  | n + 1, k, ptempbuff => by
    refine Can.get (fun _ _ => rfl) fun w' =>
      Can.bind (Q := fun _ => Quiescent D (k + 1)) ?_ fun _ => ?_
    · refine Can.bind quiet fun _ => Can.note fun w h => { h with pushed := ?_ }
      rw [World.note_log, pushes_push, List.length_append]
      exact Nat.succ_le_succ h.pushed
    · have h := writeWords n (k + 1) (ptempbuff + 1)
      rwa [show k + 1 + n = k + (n + 1) by omega] at h

/-- The flags that end the loop are flags of the mask. -/
theorem pollFlags_subset (hended : ended ∈ sdioMaskIntcFlags) :
    pollFlags .txure ended ⊆ sdioMaskIntcFlags := by
  simpa [pollFlags, sdioMaskIntcFlags] using hended

/-- The words of a round, and the place after it. -/
theorem words {n : UInt32} (hn : roundWords (total - bytesOf k) = n) (ptempbuff : ℕ) :
    Can (Quiescent D k) (do
        Gd32Firmware.writeWords n.toNat ptempbuff
        pure (.inl (ptempbuff + n.toNat, bytesOf k + 4 * n) : (ℕ × UInt32) ⊕ Unit)) fun r w =>
      ∃ loc, r = .inl loc ∧ loc.2 = bytesOf (k + (roundWords (total - bytesOf k)).toNat) ∧
        Quiescent D (k + (roundWords (total - bytesOf k)).toNat) w := by
  subst hn
  exact Can.bind (writeWords _ k ptempbuff) fun _ =>
    Can.pure _ fun w h => ⟨_, rfl, bytesOf_add k _, h⟩

theorem sendBurst (htotal : ∀ drv, D drv → drv.totalnumberBytes = total) (ptempbuff : ℕ) :
    Can (Quiescent D k) (sendBurst ptempbuff (bytesOf k)) fun r w =>
      ∃ loc, r = .inl loc ∧ loc.2 = bytesOf (k + (roundWords (total - bytesOf k)).toNat) ∧
        Quiescent D (k + (roundWords (total - bytesOf k)).toNat) w := by
  refine Can.bind (Q := fun _ => Quiescent D k) (Can.note fun w h => { h with }) fun _ => ?_
  refine Can.bind (Q := fun drv w => drv.totalnumberBytes = total ∧ Quiescent D k w)
    (Can.getDrv fun w h => ⟨htotal _ h.drv, h⟩) fun drv w h => ?_
  obtain ⟨rfl, h⟩ := h
  by_cases hrest : drv.totalnumberBytes - bytesOf k < 32
  · rw [if_pos hrest]
    exact words (if_pos hrest) ptempbuff w h
  · rw [if_neg hrest]
    exact words (n := 8) (if_neg hrest) ptempbuff w h

/-- A round that finds `TFH`. -/
theorem sendRound (htotal : ∀ drv, D drv → drv.totalnumberBytes = total)
    (hended : ended ∈ sdioMaskIntcFlags) (ptempbuff : ℕ) :
    Can (Quiescent D k) (sendRound ended (ptempbuff, bytesOf k)) fun r w =>
      ∃ loc, r = .inl loc ∧ loc.2 = bytesOf (k + (roundWords (total - bytesOf k)).toNat) ∧
        Quiescent D (k + (roundWords (total - bytesOf k)).toNat) w := by
  have hmask := pollFlags_subset hended
  refine Can.bind (Can.flagGet (b := false) (Q := Quiescent D k) instant_access (s := {}) rfl
    fun w h => ?_) fun found w h => ?_
  · have h := h.observe [] nofun
    refine ⟨(decide_eq_false ?_).symm, h⟩
    rintro ⟨f, hf, hset⟩
    exact h.stat f hset (hmask hf)
  obtain ⟨rfl, h⟩ := h
  rw [if_neg Bool.false_ne_true]
  refine Can.bind (Can.flagGet (b := true) (Q := Quiescent D k) instant_access
    (s := { flags := [.tfh] }) rfl fun w h => ?_) (fun found w h => ?_) w h
  · exact ⟨(decide_eq_true ⟨.tfh, by decide, by simp⟩).symm, h.observe [.tfh] (by decide)⟩
  obtain ⟨rfl, h⟩ := h
  rw [if_pos rfl]
  exact sendBurst htotal ptempbuff w h

/-- The loop can push as many words as it has to, and goes beyond the buffer after a part of a
word. -/
theorem pollSend (htotal : ∀ drv, D drv → drv.totalnumberBytes = total)
    (hended : ended ∈ sdioMaskIntcFlags) (b : ℕ) :
    Can (Quiescent D 0) (pollSend ended b) fun _ w =>
      Facing [ended] D AnyResponse w ∧ reach total ≤ (pushes w.log).length := by
  refine (Can.sdLoop_rounds
    (J := fun n loc w => ∃ k, loc.2 = bytesOf k ∧ Pace total n k ∧ Quiescent D k w)
    (fun loc => (needsSample_sdioFlagGet _).bind _) ?_ ?_ (wordsOf total + 1) (b, 0)).strengthen
    fun w h => ⟨0, rfl, ?_, h⟩
  · rintro n ⟨ptempbuff, _⟩ w ⟨k, rfl, hk, h⟩
    refine ((sendRound htotal hended ptempbuff).imp fun r w h => ?_) w h
    obtain ⟨loc, hr, hloc, h⟩ := h
    exact ⟨loc, hr, _, hloc, hk.round, h⟩
  · rintro loc w ⟨k, -, hk, h⟩
    refine Can.bind (Can.flagGet (P := Quiescent D k) (b := true) (Q := fun w =>
      Facing [ended] D AnyResponse w ∧ reach total ≤ (pushes w.log).length) instant_access
      (s := { flags := [ended] }) rfl fun w h => ?_) (fun found w h => ?_) w h
    · have hraised := h.raise [ended] (by simpa using hended)
      have hset := (hraised.stat ended).mpr (List.mem_singleton_self ended)
      exact ⟨(decide_eq_true ⟨ended, by simp [pollFlags], hset⟩).symm, hraised,
        hk.trans (h.pushed_observe _)⟩
    · obtain ⟨rfl, h⟩ := h
      rw [if_pos rfl]
      exact Can.pure (P := fun w => Facing [ended] D AnyResponse w ∧
        reach total ≤ (pushes w.log).length) _ (fun w h => ⟨(), rfl, h⟩) w h
  · show min (8 * (wordsOf total - wordsOf total)) (wordsOf total) ≤ 0
    omega

/-- The data of a write. -/
theorem reach_data {t : Transfer} (b : ℕ) (blocksize : UInt16) (hwrite : t.isRead = false) :
    Can (Facing [] (fun drv => drv.transmode = sdPollingMode ∧ drv.totalnumberBytes = total)
        AnyResponse)
      (t.data b blocksize) fun status w => status = .ok ∧ reach total ≤ (pushes w.log).length := by
  have hlink : KeepingLink (fun _ _ => True) fun w => reach total ≤ (pushes w.log).length :=
    keepingLink_sendState (X := fun s => reach total ≤ s.pushed.length)
  have hmode : Can (Facing [] (fun drv => drv.transmode = sdPollingMode ∧
      drv.totalnumberBytes = total) AnyResponse) getDrv fun drv w => drv.transmode = sdPollingMode ∧
        Quiescent (fun drv => drv.totalnumberBytes = total) 0 w :=
    Can.getDrv fun w h => ⟨h.drv.1, { of_facing h with drv := h.drv.2 }⟩
  cases t with
  | blockRead => exact nomatch hwrite
  | multiblocksRead => exact nomatch hwrite
  | blockWrite =>
    refine Can.bind hmode fun drv w h => ?_
    rw [if_pos h.1]
    refine Can.bind (pollSend (fun _ h => h) (by decide) b) (fun _ => ?_) w h.2
    refine Facing.sentBlock.keeps ?_ fun _ _ => Iff.rfl
    exact Keeps.ifOk (hlink.checkFaults _) hlink.finishWrite
  | multiblocksWrite =>
    refine Can.bind hmode fun drv w h => ?_
    rw [if_pos h.1]
    refine Can.bind (pollSend (fun _ h => h) (by decide) b) (fun _ => ?_) w h.2
    refine Facing.sentMultiblocks.keeps ?_ fun _ _ => Iff.rfl
    refine Keeps.ifOk (hlink.checkFaults _) (Keeps.ifOk hlink.stopPolled ?_)
    exact (hlink.flagClear _).bind fun _ => hlink.finishWrite

end Quiescent

/-- There is a card with which a write that the driver performs succeeds and pushes as many words
as its loop can. -/
theorem run_can_reach {t : Transfer} {cardtype : CardType} (b : ℕ) (addr : UInt32)
    {blocksize : UInt16} {blocksnumber : UInt32} (hwrite : t.isRead = false)
    (hperforms : t.Performs (effectiveBlocksize cardtype blocksize) blocksnumber) :
    Can (Facing [] (Facing.Polling cardtype) fun _ resp => resp 0 = 0)
      (t.run (some b) addr blocksize blocksnumber) fun status w => status = .ok ∧
        reach (t.total (effectiveBlocksize cardtype blocksize) blocksnumber) ≤
          (pushes w.log).length := by
  cases t with
  | blockRead => exact nomatch hwrite
  | multiblocksRead => exact nomatch hwrite
  | blockWrite =>
    exact Facing.sdBlockWrite hperforms.valid
      (Quiescent.reach_data (t := .blockWrite) b _ rfl)
  | multiblocksWrite =>
    obtain ⟨hlt, hle⟩ := hperforms.several (by decide)
    exact Facing.sdMultiblocksWrite hperforms.valid hlt hle
      (Quiescent.reach_data (t := .multiblocksWrite) b blocksize rfl)

/-! ## The requests that are right -/

/-- A card of this type and these samples, before a call. -/
def pollingWorld (cardtype : CardType) (ram : ℕ → UInt32) (tape : List Sample) : World :=
  { World.start (pollingDriver cardtype) tape with ram := ram }

/-- The rounds of a run that have found `TFH` and are over. A run that has not returned may be in
the last of them. -/
def roundsDone (run : Option SdError × World) : ℕ :=
  tfhRounds run.2.log - if run.1.isNone then 1 else 0

/-- The words that a call pushes with any card, from any state of a driver that polls, are the
first of the buffer, and all of them when the polling loop has found `TFH` often enough. With
some card it does, and the call succeeds, if the driver performs the request. -/
structure SendsBuffer (t : Transfer) (cardtype : CardType) (blocksize : UInt16)
    (blocksnumber : UInt32) (total : UInt32) : Prop where
  inOrder : ∀ (w : World) (b : ℕ) (addr : UInt32), w.log = [] → w.drv.transmode = sdPollingMode →
    w.drv.cardtype = cardtype →
    pushes (exec (t.run (some b) addr blocksize blocksnumber) w).2.log <+:
      bufferWords w.ram b (wordsOf total)
  complete : ∀ (w : World) (b : ℕ) (addr : UInt32), w.log = [] → w.drv.transmode = sdPollingMode →
    w.drv.cardtype = cardtype →
    wordsOf total ≤ 8 * roundsDone (exec (t.run (some b) addr blocksize blocksnumber) w) →
    bufferWords w.ram b (wordsOf total) <+:
      pushes (exec (t.run (some b) addr blocksize blocksnumber) w).2.log
  reached : t.Performs (effectiveBlocksize cardtype blocksize) blocksnumber →
    ∀ (ram : ℕ → UInt32) (b : ℕ) (addr : UInt32), ∃ tape w',
      exec (t.run (some b) addr blocksize blocksnumber) (pollingWorld cardtype ram tape) =
          (some .ok, w') ∧
        pushes w'.log = bufferWords ram b (wordsOf total)

/-- A call of a driver that polls, from a log that is empty. -/
theorem exec_sends {t : Transfer} (hwrite : t.isRead = false) {cardtype : CardType}
    (blocksize : UInt16) (blocksnumber : UInt32) (w : World) (b : ℕ) (addr : UInt32)
    (hlog : w.log = []) (hmode : w.drv.transmode = sdPollingMode)
    (hcard : w.drv.cardtype = cardtype) :
    Sends t w.ram b (effectiveBlocksize cardtype blocksize) blocksnumber
      (exec (t.run (some b) addr blocksize blocksnumber) w).1
      (exec (t.run (some b) addr blocksize blocksnumber) w).2 := by
  refine Triple.run (run_sends hwrite addr) ⟨w.drv.totalnumberBytes, ?_⟩
  rw [World.sendState, hlog, hmode, hcard]
  rfl

/-- The run of a card with which a write pushes as many words as it can. -/
theorem exec_reach {t : Transfer} (hwrite : t.isRead = false) {cardtype : CardType}
    {blocksize : UInt16} {blocksnumber : UInt32}
    (hperforms : t.Performs (effectiveBlocksize cardtype blocksize) blocksnumber)
    (ram : ℕ → UInt32) (b : ℕ) (addr : UInt32) :
    ∃ tape w', exec (t.run (some b) addr blocksize blocksnumber) (pollingWorld cardtype ram tape) =
        (some .ok, w') ∧
      reach (t.total (effectiveBlocksize cardtype blocksize) blocksnumber) ≤
        (pushes w'.log).length := by
  have hfacing : Facing [] (Facing.Polling cardtype) (fun _ resp => resp 0 = 0)
      (pollingWorld cardtype ram []) := { facing_start cardtype with }
  obtain ⟨samples, _, w', ⟨rfl, hlen⟩, hrun⟩ := run_can_reach b addr hwrite hperforms _ hfacing
  exact ⟨samples ++ [], _, hrun [], hlen⟩

/-- A write sends its buffer exactly if the driver does not carry it out, or its number of bytes
is a multiple of four. -/
theorem writes_sendsBuffer_iff (t : Transfer) (hwrite : t.isRead = false) (cardtype : CardType)
    (blocksize : UInt16) (blocksnumber : UInt32) :
    SendsBuffer t cardtype blocksize blocksnumber
        (t.total (effectiveBlocksize cardtype blocksize) blocksnumber) ↔
      (t.Performs (effectiveBlocksize cardtype blocksize) blocksnumber →
        (t.total (effectiveBlocksize cardtype blocksize) blocksnumber).toNat % 4 = 0) := by
  constructor
  · intro hsends hperforms
    by_contra hfour
    obtain ⟨tape, w', hrun, hlen⟩ := exec_reach hwrite hperforms (fun _ => 0) 0 0
    have h := (hsends.inOrder (pollingWorld cardtype (fun _ => 0) tape) 0 0 rfl rfl rfl).length_le
    rw [hrun, length_bufferWords] at h
    rw [reach, if_neg hfour] at hlen
    exact absurd h (Nat.not_le.mpr hlen)
  · intro hfour
    have hinOrder : ∀ (w : World) (b : ℕ) (addr : UInt32), w.log = [] →
        w.drv.transmode = sdPollingMode → w.drv.cardtype = cardtype →
        pushes (exec (t.run (some b) addr blocksize blocksnumber) w).2.log <+:
          bufferWords w.ram b
            (wordsOf (t.total (effectiveBlocksize cardtype blocksize) blocksnumber)) := by
      intro w b addr hlog hmode hcard
      obtain ⟨hnone, -⟩ | ⟨hperforms, hsent⟩ :=
        exec_sends hwrite blocksize blocksnumber w b addr hlog hmode hcard
      · rw [hnone]
        exact List.nil_prefix
      · exact hsent.inOrder (hfour hperforms)
    refine ⟨hinOrder, fun w b addr hlog hmode hcard hn => ?_, fun hperforms ram b addr => ?_⟩
    · obtain ⟨-, hzero⟩ | ⟨-, hsent⟩ :=
        exec_sends hwrite blocksize blocksnumber w b addr hlog hmode hcard
      · rw [roundsDone, hzero] at hn
        rw [show wordsOf _ = 0 by omega]
        exact List.nil_prefix
      · exact hsent.complete hn
    · obtain ⟨tape, w', hrun, hlen⟩ := exec_reach hwrite hperforms ram b addr
      refine ⟨tape, w', hrun, ?_⟩
      have hprefix := hinOrder (pollingWorld cardtype ram tape) b addr rfl rfl rfl
      rw [hrun] at hprefix
      refine hprefix.eq_of_length_le ?_
      rw [length_bufferWords]
      exact (Nat.le_add_right _ _).trans hlen

/-- A sample in which the FIFO takes words. -/
def tfhSet : Sample :=
  { flags := [.tfh] }

/-- The samples of a block of one word that is written at the first `TFH`, and of what the loop
does before it finds `DTBLKEND`. -/
def writeSamples (more : List Sample) : List Sample :=
  quiet 10 ++ [answer 16 0x900] ++ quiet 6 ++ [answer 13 0x900] ++ quiet 7 ++ [answer 24 0x900] ++
    quiet 8 ++ [tfhSet] ++ quiet 1 ++ more ++ [{ flags := [.dtblkend] }] ++ quiet 8 ++
    [answer 13 0x900] ++ quiet 3

/-- A card of standard capacity, and a memory of which every word is its address. -/
def numberedWorld (tape : List Sample) : World :=
  pollingWorld .stdCapacitySdCardV20 UInt32.ofNat tape

/-- A block of four bytes at address `7`. -/
theorem writes_sendsBuffer_iff_word :
    (exec (sdBlockWrite (some 7) 0 4) (numberedWorld (writeSamples []))).1 = some .ok ∧
      pushes (exec (sdBlockWrite (some 7) 0 4) (numberedWorld (writeSamples []))).2.log = [7] ∧
      SendsBuffer .blockWrite .stdCapacitySdCardV20 4 1 4 := by
  refine ⟨by decide, by decide, ?_⟩
  exact (writes_sendsBuffer_iff .blockWrite rfl .stdCapacitySdCardV20 4 1).mpr (by decide)

/-- A block of two bytes, for which `TFH` is found twice : eight words of the memory behind the
buffer follow its only one. -/
theorem not_sendsBuffer_two :
    (exec (sdBlockWrite (some 7) 0 2)
        (numberedWorld (writeSamples (quiet 1 ++ [tfhSet] ++ quiet 8)))).1 = some .ok ∧
      pushes (exec (sdBlockWrite (some 7) 0 2)
        (numberedWorld (writeSamples (quiet 1 ++ [tfhSet] ++ quiet 8)))).2.log =
          [7, 8, 9, 10, 11, 12, 13, 14, 15] ∧
      ¬ SendsBuffer .blockWrite .stdCapacitySdCardV20 2 1 2 := by
  have hpushed : pushes (exec (sdBlockWrite (some 7) 0 2)
      (numberedWorld (writeSamples (quiet 1 ++ [tfhSet] ++ quiet 8)))).2.log =
        [7, 8, 9, 10, 11, 12, 13, 14, 15] := by decide +kernel
  refine ⟨by decide +kernel, hpushed, fun hsends => ?_⟩
  have h := hsends.inOrder (numberedWorld (writeSamples (quiet 1 ++ [tfhSet] ++ quiet 8))) 7 0
    rfl rfl rfl
  rw [show Transfer.run .blockWrite (some 7) 0 2 1 = sdBlockWrite (some 7) 0 2 from rfl] at h
  rw [hpushed] at h
  exact absurd h.length_le (by decide)

end Gd32Firmware
