import Gd32Firmware.Enet
import Mathlib.Order.Basic

/-!
# What the receive interrupt makes of the ring

The loop of `ENET_IRQHandler` has no counter. It relies on each pass to take one descriptor
from the CPU to the DMA, and tells from the value of `enet_rxframe_size_get` whether one did :
0 for a descriptor of the DMA, 1 for a frame that was dropped, otherwise the size of a frame to
handle. A frame has these sizes as well : after one of size 0 the loop ends with the frame still
in the ring, and on one of size 1 it never ends.

`enetIRQHandler_iff` says that the handler does its work on every other ring, whatever its
status words are.
-/

namespace Gd32Firmware

/-- A frame to hand over : no error, in one descriptor, no payload error in a type frame. -/
def ValidFrame (status : UInt32) : Prop :=
  ¬ Faulty status ∧ ¬ (status &&& enetRdes0Frmt ≠ 0 ∧ status &&& enetRdes0Pcerr ≠ 0)

instance (status : UInt32) : Decidable (ValidFrame status) :=
  inferInstanceAs (Decidable (_ ∧ _))

/-- What is to become of the descriptor number `i`. -/
def Enet.rxEvent (e : Enet) (i : ℕ) : RxEvent :=
  if ValidFrame (e.rxStatus i) then .handled (e.rxdesc i) (e.desc (e.rxdesc i))
  else .dropped (e.rxdesc i)

/-- The first `k` descriptors belong to the DMA again, the driver is behind them, and each was
handled or dropped, in the order of the ring. -/
structure HandledAll (e e' : Enet) (k : ℕ) : Prop where
  back : ∀ i < k, e'.desc (e.rxdesc i) = { e.desc (e.rxdesc i) with status := enetRdes0Dav }
  others : ∀ addr, (∀ i < k, addr ≠ e.rxdesc i) → e'.desc addr = e.desc addr
  behind : e'.dmaCurrentRxdesc = e.rxdesc k
  once : e'.rx = e.rx ++ (List.range k).map e.rxEvent

/-- The length field leaves a frame of two bytes or more, or less than the checksum. -/
def LengthOk (macCfg status : UInt32) : Prop :=
  if crcDropped macCfg status then 2 ≤ getRdes0Frml status
  else getRdes0Frml status ≠ 4 ∧ getRdes0Frml status ≠ 5

instance (macCfg status : UInt32) : Decidable (LengthOk macCfg status) :=
  inferInstanceAs (Decidable (ite _ _ _))

theorem one_lt_iff (size : UInt32) : 1 < size ↔ size ≠ 0 ∧ size ≠ 1 := by
  simp only [UInt32.lt_iff_toNat_lt, ne_eq, ← UInt32.toNat_inj, UInt32.reduceToNat]
  omega

theorem lengthOk_iff (macCfg status : UInt32) :
    LengthOk macCfg status ↔ 1 < frameSize macCfg status := by
  have hle : (2 : UInt32) ≤ getRdes0Frml status ↔ 1 < getRdes0Frml status := by
    simp only [UInt32.le_iff_toNat_le, UInt32.lt_iff_toNat_lt, UInt32.reduceToNat]
    omega
  have hzero : getRdes0Frml status - 4 ≠ 0 ↔ getRdes0Frml status ≠ 4 := by grind
  have hone : getRdes0Frml status - 4 ≠ 1 ↔ getRdes0Frml status ≠ 5 := by grind
  unfold LengthOk frameSize
  split_ifs
  · rw [hle, UInt32.sub_add_cancel]
  · dsimp only
    rw [one_lt_iff, hzero, hone]

/-! ## One pass -/

theorem Enet.giveBack_current (e : Enet) :
    e.giveBack.current = { e.current with status := enetRdes0Dav } :=
  Function.update_self ..

/-- The links are not part of the status. -/
theorem Enet.giveBack_nextRxdesc (e : Enet) : e.giveBack.nextRxdesc = e.nextRxdesc := by
  unfold nextRxdesc
  rw [giveBack_current]
  rfl

section Pass

variable {σ : Type*} (lwip : Lwip σ) {e : Enet} (s : σ)

theorem enetRxframeDrop_eq (hptp : e.dmaCurrentPtpRxdesc = 0) :
    enetRxframeDrop e =
      { e.giveBack with
        dmaCurrentRxdesc := e.nextRxdesc
        rx := e.rx ++ [.dropped e.dmaCurrentRxdesc] } := by
  have hcurrent (rx) : Enet.current { e.giveBack with rx := rx } =
      { e.current with status := enetRdes0Dav } := e.giveBack_current
  have hptp' : e.giveBack.dmaCurrentPtpRxdesc = 0 := hptp
  unfold enetRxframeDrop Enet.nextRxdesc
  dsimp only
  rw [hcurrent, hptp']
  by_cases hrchm : e.current.controlBufferSize &&& enetRdes1Rchm = 0
  · by_cases hrerm : e.current.controlBufferSize &&& enetRdes1Rerm = 0
    · simp [hrchm, hrerm, Enet.giveBack, hptp]
    · simp [hrchm, hrerm, Enet.giveBack, hptp]
  · simp [hrchm, Enet.giveBack, hptp]

theorem Enet.resume_eq (e : Enet) :
    ∃ dmaStat dmaRpen, e.resume = { e with dmaStat := dmaStat, dmaRpen := dmaRpen } := by
  unfold resume
  split_ifs
  · exact ⟨_, _, rfl⟩
  · exact ⟨e.dmaStat, e.dmaRpen, rfl⟩

/-- The descriptor goes back, and the driver goes on to the next one. -/
theorem enetFrameReceive_eq (hcpu : e.current.status &&& enetRdes0Dav = 0) (bufsize : UInt32) :
    ∃ dmaStat dmaRpen, enetFrameReceive e none bufsize = (.success,
      { e.giveBack with
        dmaCurrentRxdesc := e.nextRxdesc, dmaStat := dmaStat, dmaRpen := dmaRpen }) := by
  obtain ⟨dmaStat, dmaRpen, hresume⟩ := e.giveBack.resume_eq
  refine ⟨dmaStat, dmaRpen, ?_⟩
  rw [enetFrameReceive, if_neg (not_not.2 hcpu), enetFrameReceive.next, hresume,
    ← e.giveBack_nextRxdesc]
  rfl

/-- Whatever lwIP does with the frame, its descriptor is received. -/
theorem ethernetifInput_enet (e : Enet) (s : σ) :
    (ethernetifInput lwip e s).2.1 = (enetFrameReceive e none 0).2 := by
  unfold ethernetifInput lowLevelInput
  dsimp only
  cases (lwip.pbufAlloc (rxdescFrameLength e e.current).toUInt16 s).1 with
  | none => rfl
  | some lens =>
    dsimp only [Option.map_some]
    split_ifs <;> rfl

/-- A frame is handled, and the driver goes on to the next descriptor. -/
theorem lwipPktHandle_eq (hcpu : e.current.status &&& enetRdes0Dav = 0) :
    ∃ dmaStat dmaRpen, (lwipPktHandle lwip e s).1 =
      { e.giveBack with
        dmaCurrentRxdesc := e.nextRxdesc
        dmaStat := dmaStat
        dmaRpen := dmaRpen
        rx := e.rx ++ [.handled e.dmaCurrentRxdesc e.current] } := by
  obtain ⟨dmaStat, dmaRpen, hreceive⟩ := enetFrameReceive_eq
    (e := { e with rx := e.rx ++ [.handled e.dmaCurrentRxdesc e.current] }) hcpu 0
  refine ⟨dmaStat, dmaRpen, ?_⟩
  rw [lwipPktHandle, ethernetifInput_enet, hreceive]
  rfl

theorem enetRxframeSizeGet_dma (hdma : e.current.status &&& enetRdes0Dav ≠ 0) :
    enetRxframeSizeGet e = (0, e) := by
  rw [enetRxframeSizeGet, if_pos hdma]

variable (hcpu : e.current.status &&& enetRdes0Dav = 0)
include hcpu

theorem enetRxframeSizeGet_faulty (hfaulty : ¬ ValidFrame e.current.status) :
    enetRxframeSizeGet e = (1, enetRxframeDrop e) := by
  rw [enetRxframeSizeGet, if_neg (not_not.2 hcpu)]
  by_cases h : Faulty e.current.status
  · rw [if_pos h]
  · have hpayload := not_not.1 (not_and.1 hfaulty h)
    rw [if_neg h, if_pos hpayload]

theorem enetRxframeSizeGet_valid (hvalid : ValidFrame e.current.status) :
    enetRxframeSizeGet e = (frameSize e.macCfg e.current.status, e) := by
  rw [enetRxframeSizeGet, if_neg (not_not.2 hcpu), if_neg hvalid.1, if_neg hvalid.2,
    if_pos ⟨hcpu, hvalid.1⟩]

end Pass

/-! ## The loop -/

/-- Before pass number `i`. -/
structure AtRxdesc (e : Enet) (i : ℕ) (e' : Enet) : Prop extends HandledAll e e' i where
  noPtp : e'.dmaCurrentPtpRxdesc = 0
  macCfg : e'.macCfg = e.macCfg
  dmaRdtaddr : e'.dmaRdtaddr = e.dmaRdtaddr
  dmaBctl : e'.dmaBctl = e.dmaBctl

/-- The interrupt flags are not part of the ring. -/
theorem atRxdesc_zero {e : Enet} {n : ℕ} (hring : RxRing e n) :
    AtRxdesc e 0 ((e.clearStat enetDmaStatRs).clearStat enetDmaStatNi) where
  back _ hi := absurd hi (Nat.not_lt_zero _)
  others _ _ := rfl
  behind := rfl
  once := (List.append_nil _).symm
  noPtp := hring.noPtp
  macCfg := rfl
  dmaRdtaddr := rfl
  dmaBctl := rfl

section Loop

variable {σ : Type*} (lwip : Lwip σ) {e e' : Enet} {s : σ} {n k i : ℕ} (hring : RxRing e n)
include hring

/-- The loop has not touched the descriptor yet. -/
theorem AtRxdesc.current_eq (h : AtRxdesc e i e') (hi : i < n) :
    e'.current = e.desc (e.rxdesc i) := by
  rw [Enet.current, h.behind]
  refine h.others _ fun j hj heq => ?_
  have hij := hring.distinct i hi j (hj.trans hi) heq
  omega

theorem AtRxdesc.status_eq (h : AtRxdesc e i e') (hi : i < n) :
    e'.current.status = e.rxStatus i :=
  congrArg EnetDescriptor.status (h.current_eq hring hi)

theorem AtRxdesc.nextRxdesc_eq (h : AtRxdesc e i e') (hi : i < n) :
    e'.nextRxdesc = e.rxdesc (i + 1) := by
  rw [Enet.rxdesc, Enet.nextRxdesc, Enet.nextRxdesc, h.current_eq hring hi, h.dmaRdtaddr, h.dmaBctl,
    h.behind]
  rfl

/-- The current descriptor goes back, and the loop goes on to the next one. -/
theorem AtRxdesc.succ (h : AtRxdesc e i e') (hi : i < n) (dmaStat : UInt32) (dmaRpen : ℕ) :
    AtRxdesc e (i + 1)
      { e'.giveBack with
        dmaCurrentRxdesc := e'.nextRxdesc
        dmaStat := dmaStat
        dmaRpen := dmaRpen
        rx := e'.rx ++ [e.rxEvent i] } where
  back j hj := by
    dsimp only [Enet.giveBack]
    rw [h.behind, h.current_eq hring hi]
    by_cases hji : j = i
    · rw [hji, Function.update_self]
    · have hne : e.rxdesc j ≠ e.rxdesc i := fun heq =>
        hji (hring.distinct j (by omega) i hi heq)
      rw [Function.update_of_ne hne]
      exact h.back j (by omega)
  others addr haddr := by
    dsimp only [Enet.giveBack]
    rw [h.behind, Function.update_of_ne (haddr i (by omega))]
    exact h.others addr fun j hj => haddr j (by omega)
  behind := h.nextRxdesc_eq hring hi
  once := by
    rw [List.range_succ, List.map_append, ← List.append_assoc, ← h.once]
    rfl
  noPtp := h.noPtp
  macCfg := h.macCfg
  dmaRdtaddr := h.dmaRdtaddr
  dmaBctl := h.dmaBctl

variable (hcpu : CpuOwns e n k)
include hcpu

theorem AtRxdesc.cpu (h : AtRxdesc e i e') (hi : i < k) :
    e'.current.status &&& enetRdes0Dav = 0 := by
  rw [h.status_eq hring (hi.trans_le hcpu.le)]
  exact hcpu.cpu i hi

/-- The size that a pass gets for a valid frame. -/
theorem AtRxdesc.sizeGet (h : AtRxdesc e i e') (hi : i < k) (hvalid : ValidFrame (e.rxStatus i)) :
    enetRxframeSizeGet e' = (frameSize e.macCfg (e.rxStatus i), e') := by
  have hstatus := h.status_eq hring (hi.trans_le hcpu.le)
  rw [enetRxframeSizeGet_valid (h.cpu hring hcpu hi) (hstatus ▸ hvalid), hstatus, h.macCfg]

/-- A pass over a descriptor of the CPU whose frame it can tell from the other answers. -/
theorem AtRxdesc.pass {p : Enet × σ} (h : AtRxdesc e i p.1) (hi : i < k)
    (hlength : ValidFrame (e.rxStatus i) → LengthOk e.macCfg (e.rxStatus i)) :
    (enetIRQPass lwip p).1 = true ∧ AtRxdesc e (i + 1) (enetIRQPass lwip p).2.1 := by
  obtain ⟨e', s⟩ := p
  have hin : i < n := hi.trans_le hcpu.le
  have hcurrent : e'.current = e.desc (e.rxdesc i) := h.current_eq hring hin
  have hclear : e'.current.status &&& enetRdes0Dav = 0 := h.cpu hring hcpu hi
  by_cases hvalid : ValidFrame (e.rxStatus i)
  · have hsize := (lengthOk_iff _ _).1 (hlength hvalid)
    have hget := h.sizeGet hring hcpu hi hvalid
    have hevent : RxEvent.handled e'.dmaCurrentRxdesc e'.current = e.rxEvent i := by
      rw [Enet.rxEvent, if_pos hvalid, hcurrent, h.behind]
    obtain ⟨dmaStat, dmaRpen, hhandle⟩ := lwipPktHandle_eq lwip s hclear
    simp only [enetIRQPass, hget, gt_iff_lt, hsize, if_true, hhandle, hevent]
    exact ⟨decide_eq_true ((one_lt_iff _).1 hsize).1, h.succ hring hin dmaStat dmaRpen⟩
  · have hget := enetRxframeSizeGet_faulty hclear (h.status_eq hring hin ▸ hvalid)
    have hevent : RxEvent.dropped e'.dmaCurrentRxdesc = e.rxEvent i := by
      rw [Enet.rxEvent, if_neg hvalid, h.behind]
    have hone : ¬ (1 : UInt32) < 1 := by decide
    simp only [enetIRQPass, hget, gt_iff_lt, hone, if_false, enetRxframeDrop_eq h.noPtp, hevent]
    exact ⟨by decide, h.succ hring hin e'.dmaStat e'.dmaRpen⟩

/-- As long as every frame has a length that does not mislead it, the loop goes on. -/
theorem atRxdesc_passState {p : Enet × σ} (hstart : AtRxdesc e 0 p.1) (hi : i ≤ k)
    (hlength : ∀ j < i, ValidFrame (e.rxStatus j) → LengthOk e.macCfg (e.rxStatus j)) :
    AtRxdesc e i (passState (enetIRQPass lwip) i p).1 ∧
      ∀ j < i, (enetIRQPass lwip (passState (enetIRQPass lwip) j p)).1 = true := by
  induction i with
  | zero => exact ⟨hstart, fun j hj => by omega⟩
  | succ i ih =>
    obtain ⟨hat, hgoes⟩ := ih (by omega) fun j hj => hlength j (by omega)
    obtain ⟨hgo, hnext⟩ := hat.pass lwip hring hcpu (by omega) (hlength i (by omega))
    refine ⟨by rwa [passState_succ], fun j hj => ?_⟩
    obtain hj | rfl : j < i ∨ j = i := by omega
    · exact hgoes j hj
    · exact hgo

/-- A frame of size 0 or 1 is left where it is, and its size decides whether the loop goes on. -/
theorem AtRxdesc.pass_of_not_lengthOk {p : Enet × σ} (h : AtRxdesc e i p.1) (hi : i < k)
    (hvalid : ValidFrame (e.rxStatus i)) (hlength : ¬ LengthOk e.macCfg (e.rxStatus i)) :
    enetIRQPass lwip p = (decide (frameSize e.macCfg (e.rxStatus i) ≠ 0), p) := by
  obtain ⟨e', s⟩ := p
  have hget := h.sizeGet hring hcpu hi hvalid
  simp only [enetIRQPass, hget, gt_iff_lt, ← lengthOk_iff, hlength, if_false]

/-- Behind the last descriptor of the CPU comes one of the DMA. -/
theorem AtRxdesc.pass_last {p : Enet × σ} (h : AtRxdesc e k p.1) :
    enetIRQPass lwip p = (false, p) := by
  obtain ⟨e', s⟩ := p
  have hdma : e'.current.status &&& enetRdes0Dav ≠ 0 := by
    obtain hlt | rfl : k < n ∨ k = n := by have := hcpu.le; omega
    · rw [h.current_eq hring hlt]
      exact hcpu.dma hlt
    · rw [Enet.current, h.behind, hring.closed, h.back 0 hring.pos]
      exact (by decide : enetRdes0Dav &&& enetRdes0Dav ≠ 0)
  have hzero : ¬ (0 : UInt32) > 1 := by decide
  simp [enetIRQPass, enetRxframeSizeGet_dma hdma, hzero]

end Loop

/-- The handler does its work, exactly if every valid frame has a length that is not taken for
one of the other answers. -/
theorem enetIRQHandler_iff {σ : Type*} (lwip : Lwip σ) (e : Enet) (s : σ) {n k : ℕ}
    (hring : RxRing e n) (hcpu : CpuOwns e n k) :
    (∃ fuel e' s', enetIRQHandler lwip fuel e s = some (e', s') ∧ HandledAll e e' k) ↔
      ∀ i < k, ValidFrame (e.rxStatus i) → LengthOk e.macCfg (e.rxStatus i) := by
  set p : Enet × σ := ((e.clearStat enetDmaStatRs).clearStat enetDmaStatNi, s)
  have hstart : AtRxdesc e 0 p.1 := atRxdesc_zero hring
  constructor
  · rintro ⟨fuel, e', s', hrun, hall⟩
    obtain ⟨m, hends, hfinal⟩ := endsAt_of_doWhile hrun
    by_contra hbad
    push Not at hbad
    classical
    -- up to the first such frame the loop works
    obtain ⟨hi, hvalid, hlength⟩ := Nat.find_spec hbad
    have hbefore : ∀ j < Nat.find hbad, ValidFrame (e.rxStatus j) →
        LengthOk e.macCfg (e.rxStatus j) := by
      intro j hj hvalid
      by_contra hlength
      exact Nat.find_min hbad hj ⟨hj.trans hi, hvalid, hlength⟩
    generalize Nat.find hbad = i at hi hvalid hlength hbefore
    obtain ⟨hat, hgoes⟩ := atRxdesc_passState lwip hring hcpu hstart hi.le hbefore
    have hpass := hat.pass_of_not_lengthOk lwip hring hcpu hi hvalid hlength
    by_cases hzero : frameSize e.macCfg (e.rxStatus i) = 0
    · have hend : EndsAt (enetIRQPass lwip) p i := ⟨hgoes, by simp [hpass, hzero]⟩
      obtain rfl := hends.eq hend
      rw [passState_succ, hpass] at hfinal
      have he' : e' = (passState (enetIRQPass lwip) m p).1 := congrArg Prod.fst hfinal
      have hleft := hat.current_eq hring (hi.trans_le hcpu.le)
      rw [Enet.current, hat.behind, ← he'] at hleft
      have hback : e.rxStatus m = enetRdes0Dav :=
        congrArg EnetDescriptor.status (hleft.symm.trans (hall.back m hi))
      have hcontra := hcpu.cpu m hi
      rw [hback] at hcontra
      exact absurd hcontra (by decide)
    · refine not_endsAt_of_fixed hgoes ?_ hends
      rw [hpass, decide_eq_true hzero]
  · intro hlength
    obtain ⟨hat, hgoes⟩ := atRxdesc_passState lwip hring hcpu hstart le_rfl hlength
    have hlast := hat.pass_last lwip hring hcpu
    have hends : EndsAt (enetIRQPass lwip) p k := ⟨hgoes, congrArg _ hlast⟩
    have hrun := doWhile_of_endsAt hends
    rw [passState_succ, hlast] at hrun
    exact ⟨k + 1, _, _, hrun, hat.toHandledAll⟩

/-- The ring that the firmware sets up. -/
def firmwareRing : Enet :=
  enetDescriptorsChainInit 0x20001000 0x20002000 enetPowerUp

/-- One frame, as the DMA hands it over : without an error, in one descriptor, of this length. -/
def oneFrame (frml : UInt32) : Enet :=
  { firmwareRing with
    desc := Function.update firmwareRing.desc firmwareRing.dmaCurrentRxdesc
      { firmwareRing.current with
        status := enetRdes0Fdes ||| enetRdes0Ldes ||| (frml <<< 16) } }

theorem oneFrame_rxRing (frml : UInt32) : RxRing (oneFrame frml) enetRxbufNum := by
  have hring : RxRing firmwareRing enetRxbufNum := enetDescriptorsChainInit_rxRing _ _ _
  refine hring.of_links (fun addr => ?_) rfl ⟨rfl, rfl⟩ rfl
  dsimp only [oneFrame]
  rw [Function.update_apply]
  split_ifs with h
  · rw [h]
    exact ⟨rfl, rfl⟩
  · exact ⟨rfl, rfl⟩

/-- lwIP without a buffer to spare. -/
def noPbuf : Lwip Unit where
  pbufAlloc _ s := (none, s)
  input _ s := (.ok, s)
  pbufFree _ s := s

/-- A frame of 64 bytes. -/
theorem enetIRQHandler_iff_frame :
    (∃ fuel e' s', enetIRQHandler noPbuf fuel (oneFrame 64) () = some (e', s') ∧
      HandledAll (oneFrame 64) e' 1) ↔
      ∀ i < 1, ValidFrame ((oneFrame 64).rxStatus i) →
        LengthOk (oneFrame 64).macCfg ((oneFrame 64).rxStatus i) :=
  enetIRQHandler_iff noPbuf (oneFrame 64) () (oneFrame_rxRing 64)
    ⟨by decide, by decide, fun _ => by decide⟩

/-- A frame of five bytes : the handler never returns. -/
theorem not_enetIRQHandler_five :
    RxRing (oneFrame 5) enetRxbufNum ∧ CpuOwns (oneFrame 5) enetRxbufNum 1 ∧
      ∀ fuel, enetIRQHandler noPbuf fuel (oneFrame 5) () = none := by
  have hcpu : CpuOwns (oneFrame 5) enetRxbufNum 1 := ⟨by decide, by decide, fun _ => by decide⟩
  refine ⟨oneFrame_rxRing 5, hcpu, fun fuel => Option.eq_none_iff_forall_ne_some.2 fun p hp => ?_⟩
  obtain ⟨i, hends, -⟩ := endsAt_of_doWhile hp
  have hpass := (atRxdesc_zero (oneFrame_rxRing 5)).pass_of_not_lengthOk noPbuf
    (p := (_, ())) (oneFrame_rxRing 5) hcpu Nat.zero_lt_one (by decide) (by decide)
  exact not_endsAt_of_fixed (j := 0) (fun k hk => absurd hk (Nat.not_lt_zero k)) hpass hends

end Gd32Firmware
