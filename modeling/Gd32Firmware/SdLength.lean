import Gd32Firmware.DiskSectors
import Gd32Firmware.SdSchedule

/-!
# The length of a transfer of several blocks

A request for so many blocks should move that many bytes when it succeeds, and be rejected when
they are more than the data state machine can count (`LengthKept`). The driver multiplies the
number of blocks by the block size in 32 bits and compares the product, and does neither for a
single block.

`multiblocks_lengthKept_iff` says for which requests this is right whatever the card does. A
wrong one goes through with a card that answers every command at once
(`multiblocks_can_return`).
-/

namespace Gd32Firmware

open Program

/-- The card has accepted the commands that come before the check of the length. -/
def SetupAccepted (t : Transfer) (log : List Event) : Prop :=
  .accepted 16 ∈ log ∧ (t.isRead = false → .accepted 13 ∈ log)

/-- The data command was accepted, and the data state machine was set up for so many bytes. -/
structure Transferred (t : Transfer) (length : ℕ) (w : World) : Prop where
  accepted : Accepted t w
  total : w.drv.totalnumberBytes.toNat = length
  dataLength : (dataLength w.log).map UInt32.toNat = some length

/-- What a request for so many bytes should have done when it returns. -/
structure LengthKept (t : Transfer) (length : ℕ) (status : SdError) (w : World) : Prop where
  performed : status = .ok → Transferred t length w
  rejected : sdMaxDataLength.toNat < length →
    status ≠ .ok ∧ (SetupAccepted t w.log → status = .parameterInvalid)

/-! ## Requests that are rejected -/

/-- None of these commands has been accepted. -/
def Unaccepted (m : UInt32) (cardtype : CardType) (indices : List UInt8) (w : World) : Prop :=
  OfCard m cardtype w ∧ ∀ index ∈ indices, .accepted index ∉ w.log

section Rejected

variable {m : UInt32} {cardtype : CardType} {indices : List UInt8} {t : Transfer}

theorem Unaccepted.note {w : World} {e : Event} (h : Unaccepted m cardtype indices w)
    (he : ∀ index ∈ indices, e ≠ .accepted index) : Unaccepted m cardtype indices (w.note e) := by
  refine ⟨h.1, fun index hindex hmem => ?_⟩
  rcases List.mem_cons.mp hmem with heq | hmem
  · exact he index hindex heq.symm
  · exact h.2 index hindex hmem

theorem handlerKeeps_unaccepted (h12 : 12 ∉ indices) :
    HandlerKeeps (Unaccepted m cardtype indices) where
  observe _ _ _ h := h.note (e := .sample _) fun _ _ => Event.noConfusion
  clear _ _ h := h
  stop _ h := h
  event e _ he h := by
    refine h.note fun index hindex heq => h12 ?_
    subst heq
    exact (show index = 12 from he) ▸ hindex
  drv f w hf h := by
    refine ⟨?_, h.2⟩
    have hwrote := hf w.drv
    unfold OfCard
    rw [World.setDrv_drv, hwrote]
    exact h.1

theorem keepingSetUp_unaccepted (h12 : 12 ∉ indices) :
    KeepingSetUp (Unaccepted m cardtype indices) where
  access := (handlerKeeps_unaccepted h12).access
  sdio _ _ _ h := h
  setUp _ _ h := h.note fun _ _ => Event.noConfusion

/-- A command leaves the list when it is accepted. -/
theorem unaccepted_commandR1 {index : UInt8} (h12 : 12 ∉ index :: indices) (argument : UInt32) :
    Triple (Unaccepted m cardtype (index :: indices)) (commandR1 access index argument)
      (fun status w => (status = .ok → Unaccepted m cardtype (indices.filter (· ≠ index)) w) ∧
        (status ≠ .ok → Unaccepted m cardtype (index :: indices) w)) fun _ => True := by
  have h : KeepingSetUp (Unaccepted m cardtype (index :: indices)) := keepingSetUp_unaccepted h12
  refine Triple.bind (Q := fun _ => Unaccepted m cardtype (index :: indices))
    (Triple.sendAnyCommand h.access (fun w => h.sdio _ w fun _ => rfl)
      (fun w => h.setUp .waitType w) fun c w hw => hw.note fun _ _ => Event.noConfusion).forget
    fun _ => ?_
  refine ((Triple.r1ErrorCheck h.access (fun _ _ hw => hw) h.access ?_ ?_).forget).imp
    fun status w hw => ⟨hw.1, fun hne => (hw.2 hne).elim id id⟩
  · exact fun w hw => Unaccepted.note (w := w.clear _) hw fun _ _ => Event.noConfusion
  · refine fun w hw => Unaccepted.note ⟨hw.1, fun i hi => hw.2 i ?_⟩ fun i hi heq => ?_
    · exact List.mem_cons_of_mem _ (List.mem_of_mem_filter hi)
    · obtain rfl : index = i := Event.accepted.inj heq
      simp at hi

/-- A request that is too long, or has a block size that is not accepted, is not carried out. -/
theorem run_rejected (ht : t.stop ≠ 0) (pbuffer : Option ℕ) (addr : UInt32) (blocksize : UInt16)
    (blocksnumber : UInt32) (hexceeds : ValidBlocksize (effectiveBlocksize cardtype blocksize) →
      1 < blocksnumber ∧
        sdMaxDataLength < blocksnumber * (effectiveBlocksize cardtype blocksize).toUInt32) :
    Triple (Unaccepted m cardtype [16, 13]) (t.run pbuffer addr blocksize blocksnumber)
      (fun status w => status ≠ .ok ∧ (SetupAccepted t w.log → status = .parameterInvalid))
      fun _ => True := by
  have hkeep : KeepingSetUp (Unaccepted m cardtype [16, 13]) := keepingSetUp_unaccepted (by decide)
  have hsetup : ∀ {rest : ℕ → UInt32 → UInt16 → Program World SdError},
      (∀ b addr', 1 < blocksnumber →
        sdMaxDataLength < blocksnumber * (effectiveBlocksize cardtype blocksize).toUInt32 →
        Triple (Unaccepted m cardtype [13]) (rest b addr' (effectiveBlocksize cardtype blocksize))
          (fun status w => status ≠ .ok ∧ (SetupAccepted t w.log → status = .parameterInvalid))
          fun _ => True) →
      Triple (Unaccepted m cardtype [16, 13]) (transferSetup pbuffer addr blocksize rest)
        (fun status w => status ≠ .ok ∧ (SetupAccepted t w.log → status = .parameterInvalid))
        fun _ => True := by
    refine fun hrest => hkeep.setup (fun _ hw => hw) hkeep.access (fun _ hw => hw) hkeep.access
      (fun _ hw => hw) (fun _ _ => ⟨by decide, fun _ => rfl⟩)
      (fun w hw => ⟨by decide, fun hs => absurd hs.1 (hw.2 16 (by decide))⟩)
      (fun _ _ => ⟨by decide, fun _ => rfl⟩) (fun _ _ => trivial) ?_
    rintro b addr' blocksize' hvalid ⟨w, hw, -, -, rfl⟩
    rw [(Prod.mk.inj hw.1).2] at hvalid ⊢
    obtain ⟨hcount, hlength⟩ := hexceeds hvalid
    refine Triple.ifOk (unaccepted_commandR1 (by decide) _) ?_ fun status w hne hw => ?_
    · exact (hrest b addr' hcount hlength).strengthen fun w hw => hw.1 rfl
    · exact ⟨hne, fun hs => absurd hs.1 ((hw.2 hne).2 16 (by decide))⟩
  cases t with
  | blockRead => exact absurd rfl ht
  | blockWrite => exact absurd rfl ht
  | multiblocksRead =>
    rw [Transfer.run, sdMultiblocksRead]
    refine hsetup fun b addr' hcount hlength => ?_
    rw [if_pos hcount, if_pos hlength]
    exact Triple.pure _ fun _ _ => ⟨by decide, fun _ => rfl⟩
  | multiblocksWrite =>
    rw [Transfer.run, sdMultiblocksWrite]
    refine hsetup fun b addr' hcount hlength => Triple.bind Keeps.getDrv.triple fun drv => ?_
    rw [if_pos hcount, if_pos hlength]
    refine Triple.ifOk (unaccepted_commandR1 (by decide) _)
      (Triple.pure _ fun _ _ => ⟨by decide, fun _ => rfl⟩) fun status w hne hw => ?_
    exact ⟨hne, fun hs => absurd (hs.2 rfl) ((hw.2 hne).2 13 (by decide))⟩

end Rejected

/-! ## Requests that succeed -/

/-- Every request that passes the check of the driver succeeds with some card. One for a single
block leaves `totalnumber_bytes` as the setup has reset it. -/
theorem multiblocks_can_return {t : Transfer} (ht : t.stop ≠ 0) {cardtype : CardType}
    {blocksize : UInt16} {blocksnumber : UInt32}
    (hvalid : ValidBlocksize (effectiveBlocksize cardtype blocksize))
    (hlength : 1 < blocksnumber →
      ¬ sdMaxDataLength < blocksnumber * (effectiveBlocksize cardtype blocksize).toUInt32) :
    Can (Facing [] (Facing.Polling cardtype) fun _ resp => resp 0 = 0)
      (t.run (some 0) 0 blocksize blocksnumber)
      (fun status w => status = .ok ∧ (¬ 1 < blocksnumber → w.drv.totalnumberBytes = 0)) := by
  have hsetup : ∀ {rest : ℕ → UInt32 → UInt16 → Program World SdError},
      (∀ addr, Can (Facing [] (fun drv => Facing.Polling cardtype drv ∧
          drv.totalnumberBytes = 0) AnyResponse)
        (rest 0 addr (effectiveBlocksize cardtype blocksize))
        (fun status w => status = .ok ∧ (¬ 1 < blocksnumber → w.drv.totalnumberBytes = 0))) →
      Can (Facing [] (Facing.Polling cardtype) fun _ resp => resp 0 = 0)
        (transferSetup (some 0) 0 blocksize rest)
        (fun status w => status = .ok ∧ (¬ 1 < blocksnumber → w.drv.totalnumberBytes = 0)) :=
    fun hrest => Facing.transferSetup (fun _ h => h.1.1) (fun _ h => ⟨h, rfl⟩) hvalid (hrest _)
  have hdone : ∀ {status : SdError} (w : World), 1 < blocksnumber → status = .ok →
      status = .ok ∧ (¬ 1 < blocksnumber → w.drv.totalnumberBytes = 0) :=
    fun w hlt hok => ⟨hok, fun hle => absurd hlt hle⟩
  cases t with
  | blockRead => exact absurd rfl ht
  | blockWrite => exact absurd rfl ht
  | multiblocksRead =>
    rw [Transfer.run, sdMultiblocksRead]
    refine hsetup fun addr => ?_
    split_ifs with hlt hle
    · exact absurd hle (hlength hlt)
    · refine Can.bind (Facing.writeShared (E := fun drv => drv.transmode = sdPollingMode)
        fun _ h => h.1.2) fun _ => ?_
      refine Can.bind (Facing.setDrv (E := fun drv => drv.transmode = sdPollingMode)
        fun _ h => h) fun _ => ?_
      refine Can.bind (Facing.startData _ _) fun _ => ?_
      exact Can.ifOk (Facing.commandR1 18 addr)
        ((Facing.multiblocksReadData (fun _ h => h) 0).imp fun _ w => hdone w hlt)
    · exact Can.pure _ fun w h => ⟨rfl, fun _ => h.drv.2⟩
  | multiblocksWrite =>
    rw [Transfer.run]
    by_cases hlt : 1 < blocksnumber
    · exact Facing.sdMultiblocksWrite hvalid hlt (hlength hlt)
        ((Facing.multiblocksWriteData (fun _ h => h.1) 0).imp fun _ w => hdone w hlt)
    rw [sdMultiblocksWrite]
    refine hsetup fun addr => Can.bind (Q := fun _ => Facing [] (fun drv =>
      Facing.Polling cardtype drv ∧ drv.totalnumberBytes = 0) AnyResponse)
      (Can.getDrv fun _ h => h) fun drv => ?_
    refine Can.ifOk (Facing.commandR1 13 _) ?_
    rw [if_neg hlt]
    exact Facing.finishWrite.imp fun _ w h => ⟨h.1, fun _ => h.2.drv.2⟩

/-- The variables of a driver that polls, after its reset. -/
def pollingDriver (cardtype : CardType) : Driver :=
  { Driver.initial with
    cardtype := cardtype
    transmode := sdPollingMode }

/-- From its reset the peripheral faces a card that has said nothing. -/
theorem facing_start (cardtype : CardType) :
    Facing [] (Facing.Polling cardtype) (fun _ resp => resp 0 = 0)
      (World.start (pollingDriver cardtype) []) where
  stat _ := Iff.rfl
  subset := List.nil_subset _
  drv := ⟨rfl, rfl⟩
  response := rfl

/-! ## The requests that are right -/

section Kept

variable {t : Transfer} {cardtype : CardType} {blocksize : UInt16} {blocksnumber : UInt32}
  {m : UInt32} {status : SdError} {w w' : World}

theorem toNat_total_eq (ht : t.stop ≠ 0) :
    (t.total blocksize blocksnumber).toNat = blocksnumber.toNat * blocksize.toNat % 2 ^ 32 := by
  rw [Transfer.total, if_neg ht, UInt32.toNat_mul, UInt16.toNat_toUInt32]

/-- The product does not wrap. -/
theorem lengthKept_of_moved (ht : t.stop ≠ 0) {pbuffer : Option ℕ}
    (hlt : blocksnumber.toNat * blocksize.toNat < 2 ^ 32)
    (hle : ¬ sdMaxDataLength < blocksnumber * blocksize.toUInt32)
    (h : Moved t m (t.total blocksize blocksnumber) pbuffer status w') :
    LengthKept t (blocksnumber.toNat * blocksize.toNat) status w' where
  performed := by
    rintro rfl
    obtain ⟨b, -, hsetup, haccepted⟩ := h rfl
    obtain ⟨⟨-, htotal, hlength, -⟩, -⟩ := hsetup rfl
    have hbytes : (t.total blocksize blocksnumber).toNat =
        blocksnumber.toNat * blocksize.toNat := by
      rw [toNat_total_eq ht, Nat.mod_eq_of_lt hlt]
    refine ⟨haccepted, htotal ▸ hbytes, ?_⟩
    rw [hlength, Option.map_some, hbytes]
  rejected hlength := by
    refine absurd ?_ hle
    rwa [UInt32.lt_iff_toNat_lt, UInt32.toNat_mul, UInt16.toNat_toUInt32, Nat.mod_eq_of_lt hlt]

/-- The single block is not moved. -/
theorem not_lengthKept_one (h : w'.drv.totalnumberBytes = 0) (hpos : 0 < blocksize)
    (hcount : blocksnumber.toNat = 1) :
    ¬ LengthKept t (blocksnumber.toNat * blocksize.toNat) .ok w' := by
  intro hkept
  have htotal := (hkept.performed rfl).total
  rw [h, hcount, Nat.one_mul] at htotal
  exact absurd htotal (UInt16.lt_iff_toNat_lt.mp hpos).ne

/-- More bytes than `totalnumber_bytes` can count are not moved. -/
theorem not_lengthKept_wraps {length : ℕ} (hle : 2 ^ 32 ≤ length) :
    ¬ LengthKept t length .ok w' := fun hkept =>
  absurd (hkept.performed rfl).total ((UInt32.toNat_lt _).trans_le hle).ne

end Kept

/-- A request keeps its length with every card and from every state exactly if its block size is
not accepted, or it is for several blocks and their number of bytes either does not wrap or wraps
to one that is rejected. -/
theorem multiblocks_lengthKept_iff (t : Transfer) (ht : t.stop ≠ 0) (cardtype : CardType)
    (blocksize : UInt16) (blocksnumber : UInt32) (hcount : 1 ≤ blocksnumber.toNat) :
    (∀ (w w' : World) (pbuffer : Option ℕ) (addr : UInt32) (status : SdError), w.log = [] →
      w.drv.cardtype = cardtype →
      exec (t.run pbuffer addr blocksize blocksnumber) w = (some status, w') →
      LengthKept t (blocksnumber.toNat * (effectiveBlocksize cardtype blocksize).toNat) status
        w') ↔
    (ValidBlocksize (effectiveBlocksize cardtype blocksize) → 1 < blocksnumber.toNat ∧
      (blocksnumber.toNat * (effectiveBlocksize cardtype blocksize).toNat < 2 ^ 32 ∨
        sdMaxDataLength.toNat <
          blocksnumber.toNat * (effectiveBlocksize cardtype blocksize).toNat % 2 ^ 32)) := by
  have hmax : sdMaxDataLength < blocksnumber * (effectiveBlocksize cardtype blocksize).toUInt32 ↔
      sdMaxDataLength.toNat <
        blocksnumber.toNat * (effectiveBlocksize cardtype blocksize).toNat % 2 ^ 32 := by
    rw [UInt32.lt_iff_toNat_lt, UInt32.toNat_mul, UInt16.toNat_toUInt32]
  have hone : 1 < blocksnumber ↔ 1 < blocksnumber.toNat := UInt32.lt_iff_toNat_lt
  constructor
  · intro hkept hvalid
    by_contra hwrong
    -- the request passes the check, so that it succeeds with some card
    have hpasses : 1 < blocksnumber →
        ¬ sdMaxDataLength < blocksnumber * (effectiveBlocksize cardtype blocksize).toUInt32 :=
      fun hlt hexceeds => hwrong ⟨hone.mp hlt, Or.inr (hmax.mp hexceeds)⟩
    obtain ⟨samples, status, w', ⟨rfl, htotal⟩, hrun⟩ :=
      multiblocks_can_return ht hvalid hpasses _ (facing_start cardtype)
    have h := hkept _ _ _ _ _ rfl rfl (hrun [])
    by_cases hlt : 1 < blocksnumber
    · refine not_lengthKept_wraps (le_of_not_gt fun hfits => ?_) h
      exact hwrong ⟨hone.mp hlt, Or.inl hfits⟩
    · have hzero : (w'.withTape []).drv.totalnumberBytes = 0 := htotal hlt
      refine not_lengthKept_one hzero hvalid.1 ?_ h
      exact le_antisymm (not_lt.mp (hone.not.mp hlt)) hcount
  · intro hright w w' pbuffer addr status hlog hcard hrun
    by_cases hexceeds : ValidBlocksize (effectiveBlocksize cardtype blocksize) →
        1 < blocksnumber ∧
          sdMaxDataLength < blocksnumber * (effectiveBlocksize cardtype blocksize).toUInt32
    · have hnone : Unaccepted w.drv.transmode cardtype [16, 13] w :=
        ⟨hcard ▸ rfl, fun index _ => by simp [hlog]⟩
      have h := (run_rejected ht pbuffer addr blocksize blocksnumber hexceeds).of_eq_some hnone
        hrun
      exact ⟨fun hok => absurd hok h.1, fun _ => h⟩
    · obtain ⟨hvalid, hpasses⟩ := Classical.not_imp.mp hexceeds
      obtain ⟨hlt, hfits⟩ := hright hvalid
      have hle := fun h => hpasses ⟨hone.mpr hlt, h⟩
      refine lengthKept_of_moved ht (hfits.resolve_right fun h => hle (hmax.mpr h)) hle
        ((run_moved (m := w.drv.transmode) t pbuffer addr blocksize blocksnumber
          fun _ => hone.mpr hlt).of_eq_some ?_ hrun)
      exact hcard ▸ rfl

/-- The samples of two blocks that are polled. -/
def readTwo : List Sample :=
  quiet 10 ++ [answer 16 0x900] ++ quiet 10 ++ [answer 18 0x900] ++ quiet 3 ++
    [{ flags := [.dtend] }] ++ quiet 9 ++ [answer 12 0x900] ++ quiet 4

/-- Two blocks of a card of high capacity. -/
theorem multiblocks_lengthKept_iff_two :
    (exec (sdMultiblocksRead (some 0) 0 0 2)
        (World.start (pollingDriver .highCapacitySdCard) readTwo)).1 = some .ok ∧
      LengthKept .multiblocksRead 1024 .ok (exec (sdMultiblocksRead (some 0) 0 0 2)
        (World.start (pollingDriver .highCapacitySdCard) readTwo)).2 := by
  have hok : (exec (sdMultiblocksRead (some 0) 0 0 2)
      (World.start (pollingDriver .highCapacitySdCard) readTwo)).1 = some .ok := by decide
  refine ⟨hok, ?_⟩
  exact (multiblocks_lengthKept_iff .multiblocksRead (by decide) .highCapacitySdCard 0 2
    (by decide)).mpr (by decide) _ _ (some 0) 0 .ok rfl rfl (exec_of_fst hok)

/-- The samples of a single block : the setup is all. -/
def readSingle : List Sample :=
  quiet 10 ++ [answer 16 0x900] ++ quiet 3

/-- One block is read with `SD_OK`, and no data command has gone out. -/
theorem not_lengthKept_single :
    (exec (sdMultiblocksRead (some 0) 0 512 1)
        (World.start (pollingDriver .stdCapacitySdCardV20) readSingle)).1 = some .ok ∧
      (commands (exec (sdMultiblocksRead (some 0) 0 512 1)
        (World.start (pollingDriver .stdCapacitySdCardV20) readSingle)).2.log).map
          Command.index = [16] ∧
      ¬ LengthKept .multiblocksRead 512 .ok (exec (sdMultiblocksRead (some 0) 0 512 1)
        (World.start (pollingDriver .stdCapacitySdCardV20) readSingle)).2 := by
  refine ⟨by decide, by decide, fun hkept => ?_⟩
  exact absurd (hkept.performed rfl).total (by decide)

end Gd32Firmware
