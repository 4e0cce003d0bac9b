import Gd32Firmware.SdDataPhase
import Gd32Firmware.SdPolledWrite

/-!
# The words of a polled read

A read takes the words out of the receive FIFO in two loops : in bursts of eight while the
transfer runs, and one by one when it is over. How many of them each loop takes depends on when
the words arrive and when the flags are seen. Throughout, the words received are those read
followed by those in the FIFO, and the buffer holds those read (`Copied`); the first loop takes
eight words only where eight are there, and the second ends only where none is left.

`FifoOk` is what the hardware promises of its flags and of the words that it accepts, and by the
end of the data phase it has accepted them all (`ArrivesOk`). The data phase is the one that the
driver knows or the one from the response on (`Watches`). A read that returns `SD_OK` and has seen
no faulty phase then has moved every word to its place (`read_holdsReceived`, `reads_deliver`).
-/

namespace Gd32Firmware

open Program

/-! ## Words received and words read -/

/-- The words received, oldest first : those in the FIFO at the start, and those that arrived. -/
def wordsReceived (words : List UInt32) : List Event → List UInt32
  | [] => words
  | .sample s :: log => wordsReceived words log ++ s.words
  | _ :: log => wordsReceived words log

/-- The words taken out of the FIFO, oldest first. -/
def wordsRead : List Event → List UInt32
  | [] => []
  | .read word :: log => wordsRead log ++ [word]
  | _ :: log => wordsRead log

/-- The words that can be read. -/
def readable (words : List UInt32) (log : List Event) : List UInt32 :=
  (wordsReceived words log).drop (wordsRead log).length

theorem wordsReceived_cons {e : Event} (he : ∀ s, e ≠ .sample s) (words : List UInt32)
    (log : List Event) : wordsReceived words (e :: log) = wordsReceived words log := by
  cases e with
  | sample s => exact absurd rfl (he s)
  | _ => rfl

theorem wordsRead_cons {e : Event} (he : ∀ word, e ≠ .read word) (log : List Event) :
    wordsRead (e :: log) = wordsRead log := by
  cases e with
  | read word => exact absurd rfl (he word)
  | _ => rfl

/-! ## The hardware -/

/-- What the hardware promises of a sample in a read of `n` words. The flags of the FIFO follow
what is in it, and no more than `n` words are accepted. -/
structure FifoOk (words : List UInt32) (n : ℕ) (log : List Event) (s : Sample) : Prop where
  rfh : .rfh ∈ s.flags → 8 ≤ (readable words (.sample s :: log)).length
  rxdtval : .rxdtval ∈ s.flags ↔ readable words (.sample s :: log) ≠ []
  accepted : (wordsReceived words (.sample s :: log)).length ≤ n

instance (words : List UInt32) (n : ℕ) (log : List Event) (s : Sample) :
    Decidable (FifoOk words n log s) :=
  decidable_of_iff ((.rfh ∈ s.flags → 8 ≤ (readable words (.sample s :: log)).length) ∧
      (.rxdtval ∈ s.flags ↔ readable words (.sample s :: log) ≠ []) ∧
      (wordsReceived words (.sample s :: log)).length ≤ n)
    ⟨fun h => ⟨h.1, h.2.1, h.2.2⟩, fun h => ⟨h.rfh, h.rxdtval, h.accepted⟩⟩

/-- All words are accepted before the transfer ends, which it does without an error. -/
structure ReceiveOk (t : Transfer) (words : List UInt32) (n : ℕ) (log : List Event)
    (s : Sample) : Prop extends FifoOk words n log s where
  ends : phase t log = .running → anySet t.ends s.flags →
    (wordsReceived words (.sample s :: log)).length = n
  clean : phase t log = .running → ¬ anySet t.errors s.flags

instance (t : Transfer) (words : List UInt32) (n : ℕ) (log : List Event) (s : Sample) :
    Decidable (ReceiveOk t words n log s) :=
  decidable_of_iff (FifoOk words n log s ∧
      (phase t log = .running → anySet t.ends s.flags →
        (wordsReceived words (.sample s :: log)).length = n) ∧
      (phase t log = .running → ¬ anySet t.errors s.flags))
    ⟨fun h => ⟨h.1, h.2.1, h.2.2⟩, fun h => ⟨h.toFifoOk, h.ends, h.clean⟩⟩

/-- The same for an event; only samples are the hardware's. -/
def Event.ReceiveOk (t : Transfer) (words : List UInt32) (n : ℕ) (log : List Event) :
    Event → Prop
  | .sample s => Gd32Firmware.ReceiveOk t words n log s
  | _ => True

instance (t : Transfer) (words : List UInt32) (n : ℕ) (log : List Event) (e : Event) :
    Decidable (e.ReceiveOk t words n log) :=
  decidable_of_iff (∀ s ∈ e.asSample, Gd32Firmware.ReceiveOk t words n log s)
    (Event.forall_asSample (P := Event.ReceiveOk t words n log) fun e he => by
      cases e <;> trivial)

/-- The hardware kept its promises throughout a log. -/
def ReceivesOk (t : Transfer) (words : List UInt32) (n : ℕ) : List Event → Prop :=
  AllOk fun log e => e.ReceiveOk t words n log

instance (t : Transfer) (words : List UInt32) (n : ℕ) (log : List Event) :
    Decidable (ReceivesOk t words n log) :=
  inferInstanceAs (Decidable (AllOk _ log))

/-- The promises of the FIFO, for an event, and that a phase which is over has brought all
words. -/
def Event.ArrivesOk (ph : List Event → Phase) (words : List UInt32) (n : ℕ) (log : List Event) :
    Event → Prop
  | .sample s => FifoOk words n log s ∧
      (ph (.sample s :: log) = .done → (wordsReceived words (.sample s :: log)).length = n)
  | _ => True

instance (ph : List Event → Phase) (words : List UInt32) (n : ℕ) (log : List Event) (e : Event) :
    Decidable (e.ArrivesOk ph words n log) :=
  decidable_of_iff (∀ s ∈ e.asSample, FifoOk words n log s ∧
      (ph (.sample s :: log) = .done → (wordsReceived words (.sample s :: log)).length = n))
    (Event.forall_asSample (P := Event.ArrivesOk ph words n log) fun e he => by
      cases e <;> trivial)

/-- The words arrived as the hardware promises. -/
def ArrivesOk (ph : List Event → Phase) (words : List UInt32) (n : ℕ) : List Event → Prop :=
  AllOk fun log e => e.ArrivesOk ph words n log

instance (ph : List Event → Phase) (words : List UInt32) (n : ℕ) (log : List Event) :
    Decidable (ArrivesOk ph words n log) :=
  inferInstanceAs (Decidable (AllOk _ log))

/-- The end of the data has been found, or an error before it. -/
def Phase.Settled (p : Phase) : Prop :=
  p = .faulty ∨ p = .done

/-- A monitor of the data phase. The end comes with a sample, what has been found is final, and
something has been found when the driver can know of it. -/
structure Watches (t : Transfer) (ph : List Event → Phase) : Prop where
  start : ph [] = .before
  ends : ∀ e log, ph (e :: log) = .done → ph log = .done ∨ ∃ s, e = .sample s
  stays : ∀ e log, (ph log).Settled → ph (e :: log) = ph log
  settles : ∀ log, (phase t log).Settled → (ph log).Settled

section Hardware

variable {t : Transfer} {ph : List Event → Phase} {words : List UInt32} {n : ℕ}

/-- Only an error flag makes a phase faulty. -/
theorem Phase.eq_of_next_faulty {p : Phase} {e : Event} (h : p.next t e = .faulty) :
    p = .faulty ∨ p = .running ∧ ∃ s, e = .sample s ∧ anySet t.errors s.flags := by
  unfold Phase.next at h
  split at h
  · split_ifs at h
  · split_ifs at h with herr
    exact Or.inr ⟨rfl, _, rfl, herr⟩
  · exact Or.inl h

/-- Only a flag for the end ends a phase. -/
theorem Phase.eq_of_next_done {p : Phase} {e : Event} (h : p.next t e = .done) :
    p = .done ∨ p = .running ∧ ∃ s, e = .sample s ∧ anySet t.ends s.flags := by
  unfold Phase.next at h
  split at h
  · split_ifs at h
  · split_ifs at h with _ hend
    exact Or.inr ⟨rfl, _, rfl, hend⟩
  · exact Or.inl h

/-- A transfer that ends without an error is in no faulty phase. -/
theorem ReceivesOk.not_faulty : ∀ {log}, ReceivesOk t words n log → phase t log ≠ .faulty
  | [], _ => Phase.noConfusion
  | _ :: _, ⟨he, hlog⟩ => fun hfaulty => by
    rcases Phase.eq_of_next_faulty hfaulty with hp | ⟨hp, s, rfl, herr⟩
    · exact ReceivesOk.not_faulty hlog hp
    · exact he.clean hp herr

/-- What has been received stays received. -/
theorem length_wordsReceived_le (e : Event) (log : List Event) :
    (wordsReceived words log).length ≤ (wordsReceived words (e :: log)).length := by
  cases e with
  | sample s =>
    rw [wordsReceived, List.length_append]
    exact Nat.le_add_right _ _
  | _ => exact le_rfl

/-- When the phase that the driver knows is over all words have been received. -/
theorem ReceivesOk.length_eq : ∀ {log}, ReceivesOk t words n log → phase t log = .done →
    (wordsReceived words log).length = n
  | [], _, hdone => Phase.noConfusion hdone
  | e :: log, ⟨he, hlog⟩, hdone => by
    rcases Phase.eq_of_next_done hdone with hp | ⟨hp, s, rfl, hend⟩
    · have ih : (wordsReceived words log).length = n := ReceivesOk.length_eq hlog hp
      cases e with
      | sample s => exact le_antisymm he.accepted (ih ▸ length_wordsReceived_le (.sample s) log)
      | _ => exact ih
    · exact he.ends hp hend

/-- So the words arrive as promised. -/
theorem ReceivesOk.arrivesOk : ∀ {log}, ReceivesOk t words n log →
    ArrivesOk (phase t) words n log
  | [], _ => trivial
  | e :: log, h => by
    refine ⟨?_, ReceivesOk.arrivesOk h.2⟩
    cases e with
    | sample s => exact ⟨h.1.toFifoOk, ReceivesOk.length_eq h⟩
    | _ => exact trivial

theorem Phase.Settled.next {p : Phase} {e : Event} (h : p.Settled) : p.next t e = p := by
  rcases h with rfl | rfl
  · exact Phase.next_faulty
  · exact Phase.next_done

/-- The phase that the driver knows is one of the monitors, -/
theorem watches_phase (t : Transfer) : Watches t (phase t) where
  start := rfl
  ends _ _ h := (Phase.eq_of_next_done h).imp_right fun ⟨_, s, he, _⟩ => ⟨s, he⟩
  stays _ _ h := h.next
  settles _ h := h

/-- The data phase has started when the driver knows of it. -/
theorem dataPhase_of_phase : ∀ {log : List Event}, phase t log ≠ .before →
    (dataPhase t log).Settled ∨ dataPhase t log = phase t log
  | [], h => absurd rfl h
  | e :: log, h => by
    by_cases hd : dataPhase t log = .before
    · -- the data phase has not run, so that this is the response that the driver takes
      have hp : phase t log = .before := by
        by_contra hp
        rcases dataPhase_of_phase hp with hsettled | heq
        · rcases hsettled with h | h <;> exact absurd (hd.symm.trans h) (by decide)
        · exact hp (heq.symm.trans hd)
      rw [phase_cons, hp] at h ⊢
      cases e with
      | taken cmdindex =>
        rw [dataPhase_cons_of_not_responds id, hd]
        exact Or.inr rfl
      | _ => exact absurd rfl h
    · rw [dataPhase_cons_of_ne_before hd]
      by_cases hp : phase t log = .before
      · -- a phase that runs goes on over what the driver takes
        rw [phase_cons, hp] at h ⊢
        cases e with
        | taken cmdindex =>
          have hindex : cmdindex = t.dataCommand := by
            by_contra hne
            exact h (if_neg hne)
          rw [show Phase.before.next t (.taken cmdindex) = .running from if_pos hindex]
          cases hdp : dataPhase t log with
          | before => exact absurd hdp hd
          | running => exact Or.inr rfl
          | faulty => exact Or.inl (Or.inl rfl)
          | done => exact Or.inl (Or.inr rfl)
        | _ => exact absurd rfl h
      · rcases dataPhase_of_phase hp with hsettled | heq
        · exact Or.inl (hsettled.next.symm ▸ hsettled)
        · exact Or.inr (by rw [heq, phase_cons])

/-- and the data phase is the other. -/
theorem watches_dataPhase (t : Transfer) : Watches t (dataPhase t) where
  start := rfl
  ends e log h := by
    by_cases hresponds : Responds t log e
    · cases e with
      | sample s => exact Or.inr ⟨s, rfl⟩
      | _ => exact hresponds.elim
    · rw [dataPhase_cons_of_not_responds hresponds] at h
      exact (Phase.eq_of_next_done h).imp_right fun ⟨_, s, he, _⟩ => ⟨s, he⟩
  stays e log h := by
    rw [dataPhase_cons_of_ne_before, h.next]
    rcases h with h | h <;> rw [h] <;> decide
  settles log h := by
    have hp : phase t log ≠ .before := by
      rcases h with h | h <;> rw [h] <;> decide
    exact (dataPhase_of_phase hp).elim id fun heq => heq.symm ▸ h

/-- When the phase is over all words have been received. -/
theorem ArrivesOk.length_eq (hph : Watches t ph) : ∀ {log}, ArrivesOk ph words n log →
    ph log = .done → (wordsReceived words log).length = n
  | [], _, hdone => absurd (hph.start.symm.trans hdone) (by decide)
  | e :: log, ⟨he, hlog⟩, hdone => by
    rcases hph.ends e log hdone with hlast | ⟨s, rfl⟩
    · have ih : (wordsReceived words log).length = n := ArrivesOk.length_eq hph hlog hlast
      cases e with
      | sample s => exact he.2 hdone
      | _ => exact ih
    · exact he.2 hdone

end Hardware

/-! ## The copy -/

theorem bufferWords_update {ram : ℕ → UInt32} {b n p : ℕ} (h : b + n ≤ p) (word : UInt32) :
    bufferWords (Function.update ram p word) b n = bufferWords ram b n := by
  refine List.map_congr_left fun i hi => Function.update_of_ne ?_ _ _
  have := List.mem_range.mp hi
  omega

/-- The words received are those read and those in the FIFO, the buffer at `b` holds those read,
which end at `p`, and the rest of the memory is as it was. -/
structure Copied (words : List UInt32) (ram : ℕ → UInt32) (b p : ℕ) (log : List Event)
    (fifo : List UInt32) (mem : ℕ → UInt32) : Prop where
  pointer : b + (wordsRead log).length = p
  conserved : wordsReceived words log = wordsRead log ++ fifo
  buffer : bufferWords mem b (wordsRead log).length = wordsRead log
  frame : ∀ q, q < b ∨ p ≤ q → mem q = ram q

namespace Copied

variable {words fifo : List UInt32} {ram mem : ℕ → UInt32} {b p : ℕ} {log : List Event}

theorem start : Copied words ram b b [] words ram where
  pointer := rfl
  conserved := rfl
  buffer := rfl
  frame _ _ := rfl

theorem readable_eq (h : Copied words ram b p log fifo mem) : readable words log = fifo := by
  rw [readable, h.conserved, List.drop_left]

/-- Words arrive behind those in the FIFO. -/
theorem arrive (h : Copied words ram b p log fifo mem) (s : Sample) :
    Copied words ram b p (.sample s :: log) (fifo ++ s.words) mem where
  pointer := h.pointer
  conserved := by
    show wordsReceived words log ++ s.words = wordsRead log ++ (fifo ++ s.words)
    rw [h.conserved, List.append_assoc]
  buffer := h.buffer
  frame := h.frame

/-- Any other event is not about words. -/
theorem note {e : Event} (h : Copied words ram b p log fifo mem) (hs : ∀ s, e ≠ .sample s)
    (hread : ∀ word, e ≠ .read word) : Copied words ram b p (e :: log) fifo mem where
  pointer := by rw [wordsRead_cons hread, h.pointer]
  conserved := by rw [wordsReceived_cons hs, wordsRead_cons hread, h.conserved]
  buffer := by rw [wordsRead_cons hread, h.buffer]
  frame := h.frame

/-- The first word of the FIFO is read and stored behind those before it. -/
theorem take {word : UInt32} (h : Copied words ram b p log (word :: fifo) mem) :
    Copied words ram b (p + 1) (.read word :: log) fifo (Function.update mem p word) where
  pointer := by
    rw [wordsRead, List.length_append, ← Nat.add_assoc, h.pointer]
    rfl
  conserved := by
    show wordsReceived words log = wordsRead log ++ [word] ++ fifo
    rw [h.conserved, List.append_assoc]
    rfl
  buffer := by
    show bufferWords (Function.update mem p word) b (wordsRead log ++ [word]).length =
      wordsRead log ++ [word]
    rw [List.length_append, List.length_singleton, bufferWords_succ,
      bufferWords_update h.pointer.le, h.buffer, h.pointer, Function.update_self]
  frame q hq := by
    have hle : b ≤ p := h.pointer ▸ Nat.le_add_right b _
    rw [Function.update_of_ne (by omega)]
    exact h.frame q (by omega)

end Copied

/-- The copy has come to `p`, and at least so many words can be read. -/
def CopiedTo (words : List UInt32) (ram : ℕ → UInt32) (b p k : ℕ) (w : World) : Prop :=
  Copied words ram b p w.log w.sdio.fifo w.ram ∧ k ≤ w.sdio.fifo.length

/-- The driver is polling, and `X` holds as long as the hardware keeps its promises. -/
abbrev Receiving (ph : List Event → Phase) (words : List UInt32) (n : ℕ) (X : World → Prop) :
    World → Prop :=
  Guarded (fun log e => e.ArrivesOk ph words n log) (fun transmode _ => transmode = sdPollingMode) X

/-- The flags say what is in the FIFO. -/
def FlagsTell (w : World) : Prop :=
  (.rxdtval ∈ w.sdio.stat ↔ w.sdio.fifo ≠ []) ∧ (.rfh ∈ w.sdio.stat → 8 ≤ w.sdio.fifo.length)

section Copying

variable {t : Transfer} {ph : List Event → Phase} {words : List UInt32} {n : ℕ}
  {ram : ℕ → UInt32} {b p k : ℕ}

theorem CopiedTo.observe {w : World} (h : CopiedTo words ram b p k w) (s : Sample)
    (tape : List Sample) : CopiedTo words ram b p k (w.observe s tape) := by
  refine ⟨h.1.arrive s, h.2.trans ?_⟩
  show w.sdio.fifo.length ≤ (w.sdio.fifo ++ s.words).length
  rw [List.length_append]
  exact Nat.le_add_right _ _

theorem CopiedTo.note {w : World} {e : Event} (h : CopiedTo words ram b p k w)
    (hs : ∀ s, e ≠ .sample s) (hread : ∀ word, e ≠ .read word) :
    CopiedTo words ram b p k (w.note e) :=
  ⟨h.1.note hs hread, h.2⟩

/-- The handler takes no word. -/
theorem CopiedTo.ofHandler {w : World} {e : Event} (h : CopiedTo words ram b p k w)
    (he : e.OfHandler) : CopiedTo words ram b p k (w.note e) := by
  refine h.note ?_ ?_
  · rintro s rfl
    exact he
  · rintro word rfl
    exact he

/-- After a sample the flags say what is in the FIFO. -/
theorem CopiedTo.flagsTell {w : World} (h : CopiedTo words ram b p k w) {s : Sample}
    (hok : FifoOk words n w.log s) (tape : List Sample) : FlagsTell (w.observe s tape) := by
  have hfifo : readable words (.sample s :: w.log) = (w.observe s tape).sdio.fifo :=
    (h.1.arrive s).readable_eq
  have hstat : ∀ f ∉ sdioMaskIntcFlags, f ∈ (w.observe s tape).sdio.stat ↔ f ∈ s.flags := by
    intro f hf
    rw [World.mem_stat_observe]
    exact or_iff_right fun h => hf h.2
  rw [FlagsTell, hstat .rxdtval (by decide), hstat .rfh (by decide), ← hfifo]
  exact ⟨hok.rxdtval, hok.rfh⟩

theorem handlerKeeps_copiedTo :
    HandlerKeeps (Receiving ph words n (CopiedTo words ram b p k)) where
  observe s tape _ h := h.observe fun _ h => h.observe s tape
  clear _ _ h := h.update rfl rfl rfl id
  stop _ h := h.update rfl rfl rfl id
  event _ _ he h := h.note fun _ h => h.ofHandler he
  drv _ w hf h := h.update rfl (hf w.drv).transmode (hf w.drv).cardtype id

theorem copiedTo_access : Keeps (Receiving ph words n (CopiedTo words ram b p k)) access :=
  handlerKeeps_copiedTo.access

/-- After an instant the flags say what is in the FIFO. -/
theorem copiedTo_access_flagsTell :
    Triple (Receiving ph words n (CopiedTo words ram b p k)) access
      (fun _ => Receiving ph words n fun w => CopiedTo words ram b p k w ∧ FlagsTell w)
      (Receiving ph words n (CopiedTo words ram b p k)) := by
  refine handlerKeeps_copiedTo.access_of_observe (fun w h => h.imp And.left) ?_ ?_ ?_
  · exact fun s tape w h => h.observe fun hok h => ⟨h.observe s tape, h.flagsTell hok.1 tape⟩
  · exact fun e w he h => h.note fun _ h => ⟨h.1.ofHandler he, h.2⟩
  · exact fun f w hf h => h.update rfl (hf w.drv).transmode (hf w.drv).cardtype id

/-- So many words are read and stored, if so many can be read. -/
theorem copiedTo_readWords : ∀ k p,
    Triple (Receiving ph words n (CopiedTo words ram b p k)) (readWords k p)
      (fun _ => Receiving ph words n (CopiedTo words ram b (p + k) 0)) fun _ => True
  | 0, _ => Triple.pure () fun _ h => h
  | k + 1, p => by
    refine Triple.bind (Q := fun word => Receiving ph words n fun w =>
      CopiedTo words ram b (p + 1) k (w.store p word)) ?_ fun word => ?_
    · refine Triple.sdioDataRead copiedTo_access.triple fun w h => ⟨h.fixed, fun hs => ?_⟩
      obtain ⟨hcopied, hlen⟩ := h.holds hs.2
      show Copied words ram b (p + 1) (.read (w.sdio.fifo.headD 0) :: w.log) w.sdio.fifo.tail
        (Function.update w.ram p (w.sdio.fifo.headD 0)) ∧ k ≤ w.sdio.fifo.tail.length
      cases hfifo : w.sdio.fifo with
      | nil => rw [hfifo] at hlen; exact absurd hlen (by simp)
      | cons word fifo =>
        rw [hfifo] at hcopied hlen
        exact ⟨hcopied.take, Nat.le_of_succ_le_succ hlen⟩
    · refine Triple.bind (Q := fun _ => Receiving ph words n (CopiedTo words ram b (p + 1) k))
        (Triple.modify _ fun w h => h.update rfl rfl rfl id) fun _ => ?_
      have h := copiedTo_readWords k (p + 1)
      rwa [show p + 1 + k = p + (k + 1) by omega] at h

/-- The first loop takes words where eight are there. -/
theorem copiedTo_pollReceive (ended : Flag) :
    Triple (Receiving ph words n (CopiedTo words ram b p 0)) (pollReceive ended p)
      (fun p => Receiving ph words n (CopiedTo words ram b p 0)) fun _ => True := by
  refine Triple.sdLoop (J := fun p => Receiving ph words n (CopiedTo words ram b p 0))
    (fun p => ?_) (fun _ _ _ => trivial) p
  refine Triple.bind (Keeps.sdioFlagGet copiedTo_access).triple fun _ =>
    Triple.ite (fun _ => Triple.pure _ fun _ h => h) fun _ => ?_
  refine Triple.bind (Triple.sdioFlagGet copiedTo_access_flagsTell).forget fun found =>
    Triple.ite (fun hfound => ?_) fun _ => Triple.pure _ fun w h => h.1.imp And.left
  refine Triple.bind ((copiedTo_readWords 8 p).strengthen fun w hw => ?_) fun _ =>
    Triple.pure _ fun _ h => h
  have hset : .rfh ∈ w.sdio.stat := anySet_singleton.mp (hw.2.mp hfound)
  exact hw.1.imp fun h => ⟨h.1.1, h.2.2 hset⟩

/-- The second loop ends when the FIFO is empty. -/
theorem copiedTo_drainFifo :
    Triple (Receiving ph words n (CopiedTo words ram b p 0)) (drainFifo p)
      (fun _ w => ∃ p, Receiving ph words n
        (fun w => CopiedTo words ram b p 0 w ∧ w.sdio.fifo = []) w) fun _ => True := by
  refine Triple.sdLoop (J := fun p => Receiving ph words n (CopiedTo words ram b p 0))
    (fun p => ?_) (fun _ _ _ => trivial) p
  refine Triple.bind (Triple.sdioFlagGet copiedTo_access_flagsTell).forget fun found =>
    Triple.ite (fun hfound => ?_) fun hnone => Triple.pure _ fun w hw => ?_
  · refine Triple.bind ((copiedTo_readWords 1 p).strengthen fun w hw => ?_) fun _ =>
      Triple.pure _ fun _ h => h
    have hset : .rxdtval ∈ w.sdio.stat := anySet_singleton.mp (hw.2.mp hfound)
    exact hw.1.imp fun h => ⟨h.1.1, List.length_pos_of_ne_nil (h.2.1.mp hset)⟩
  · refine ⟨p, hw.1.imp fun h => ⟨h.1, ?_⟩⟩
    by_contra hfifo
    exact hnone (hw.2.mpr (anySet_singleton.mpr (h.2.1.mpr hfifo)))

/-! ## What takes no word -/

theorem copiedTo_flagClear (mask : List Flag) :
    Keeps (Receiving ph words n (CopiedTo words ram b p k)) (sdioFlagClear access mask) :=
  Keeps.sdioFlagClear copiedTo_access fun _ h => h.update rfl rfl rfl id

theorem copiedTo_configure (s : Setting) :
    Keeps (Receiving ph words n (CopiedTo words ram b p k)) (configure access s) :=
  Keeps.configure copiedTo_access fun _ h => h.note fun _ h => h.note nofun nofun

theorem copiedTo_startData (blocksize : UInt16) (toSdio : Bool) :
    Keeps (Receiving ph words n (CopiedTo words ram b p k)) (startData blocksize toSdio) :=
  Keeps.getDrv.bind fun _ => (copiedTo_configure _).bind fun _ =>
    (copiedTo_configure _).bind fun _ => copiedTo_configure _

theorem copiedTo_commandR1 (index : UInt8) (argument : UInt32) :
    Keeps (Receiving ph words n (CopiedTo words ram b p k)) (commandR1 access index argument) := by
  refine Keeps.bind (Triple.sendAnyCommand copiedTo_access (fun _ h => h.update rfl rfl rfl id)
    (fun _ h => h.note fun _ h => h.note nofun nofun)
    fun _ _ h => h.note fun _ h => h.note nofun nofun) fun _ => ?_
  exact Keeps.r1ErrorCheck copiedTo_access (fun _ _ h => h.update rfl rfl rfl id)
    (fun _ h => h.note fun _ h => h.note nofun nofun)
    fun _ h => h.note fun _ h => h.note nofun nofun

theorem copiedTo_checkFaults (faults : List (Flag × SdError)) :
    Keeps (Receiving ph words n (CopiedTo words ram b p k)) (checkFaults access faults) :=
  Keeps.checkFaults copiedTo_access (fun _ _ h => h.update rfl rfl rfl id) faults

theorem copiedTo_stopPolled :
    Keeps (Receiving ph words n (CopiedTo words ram b p k)) stopPolled :=
  (Keeps.sdioFlagGet copiedTo_access).bind fun _ => Keeps.ite
    (Keeps.getDrv.bind fun _ => Keeps.ite (copiedTo_commandR1 12 0) (Keeps.pure _))
    (Keeps.pure _)

/-! ## The end of the data -/

/-- While the data is awaited none of its flags is set. -/
def RunState (t : Transfer) (w : World) : Prop :=
  phase t w.log = .running ∧ ¬ anySet (t.errors ++ t.ends) w.sdio.stat ∨ (phase t w.log).Settled

theorem PollState.runState {w : World} (h : PollState t w) : RunState t w := by
  rcases h with h | ⟨hp, -⟩ | hp
  · exact Or.inl h
  · exact Or.inr (Or.inl hp)
  · exact Or.inr (Or.inr hp)

theorem RunState.observe {w : World} (h : RunState t w) (s : Sample) (tape : List Sample) :
    RunState t (w.observe s tape) := by
  rcases h with h | hp
  · exact (PollState.observe (Or.inl h) s tape).runState
  · refine Or.inr ?_
    rw [World.observe_log, phase_cons, hp.next]
    exact hp

theorem RunState.note {w : World} {e : Event} (h : RunState t w) (he : ¬ e.Starts t)
    (hs : ∀ s, e ≠ .sample s) : RunState t (w.note e) := by
  unfold RunState
  rw [World.note_log, phase_cons, Phase.next_eq he hs]
  exact h

theorem RunState.clear {w : World} (h : RunState t w) (mask : List Flag) :
    RunState t (w.clear mask) := by
  refine h.imp_left fun ⟨hp, hnone⟩ => ⟨hp, ?_⟩
  rintro ⟨f, hf, hset⟩
  exact hnone ⟨f, hf, (World.mem_stat_clear.mp hset).1⟩

/-- A flag that ends the loop has been raised since the response was taken. -/
theorem RunState.settled {w : World} (h : RunState t w) {mask : List Flag}
    (hmask : ∀ f ∈ mask, f ∈ t.errors ++ t.ends) (hset : anySet mask w.sdio.stat) :
    (phase t w.log).Settled := by
  refine h.resolve_left fun ⟨_, hnone⟩ => ?_
  obtain ⟨f, hf, hstat⟩ := hset
  exact hnone ⟨f, hmask f hf, hstat⟩

theorem handlerKeeps_runState : HandlerKeeps (Receiving ph words n (RunState t)) where
  observe s tape _ h := h.observe fun _ h => h.observe s tape
  clear mask _ h := h.update rfl rfl rfl fun h => h.clear mask
  stop _ h := h.update rfl rfl rfl id
  event _ _ he h := h.note fun _ h => h.note
    (fun hstarts => t.not_ofDataCommand_of_ofHandler he hstarts.ofDataCommand)
    (by rintro s rfl; exact he)
  drv _ w hf h := h.update rfl (hf w.drv).transmode (hf w.drv).cardtype id

theorem keeping_runState : Keeping (Receiving ph words n (RunState t)) where
  access := handlerKeeps_runState.access
  data _ _ he h := h.note fun _ h => h.note
    (fun hstarts => t.not_ofDataCommand_of_ofData he hstarts.ofDataCommand)
    (by rintro s rfl; exact he)
  sdio g w hg h := h.update rfl rfl rfl fun h => by
    unfold RunState
    rw [World.setSdio_sdio, hg]
    exact h
  store _ _ _ h := h.update rfl rfl rfl id
  setUp _ _ h := h.note fun _ h => h.note id (by rintro s ⟨⟩)
  total _ _ h := h.update rfl rfl rfl id

/-- What has been found is kept, -/
theorem keepingCommands_settled (hph : Watches t ph) :
    KeepingCommands (fun index _ => index ≠ t.dataCommand)
      (Receiving ph words n fun w => (ph w.log).Settled) :=
  keepingCommands_log (L := fun log => (ph log).Settled) fun e log _ h =>
    (hph.stays e log h).symm ▸ h

/-- and stays what it is. -/
theorem keepingCommands_final (hph : Watches t ph) {p : Phase} (hp : p.Settled) :
    KeepingCommands (fun index _ => index ≠ t.dataCommand)
      (Receiving ph words n fun w => ph w.log = p) :=
  keepingCommands_log (L := fun log => ph log = p) fun e log _ h =>
    (hph.stays e log (h.symm ▸ hp)).trans h

/-- The data command has not been taken. -/
theorem keepingCommands_untaken :
    KeepingCommands (fun index _ => index ≠ t.dataCommand)
      (Receiving ph words n fun w => phase t w.log = .before) :=
  keepingCommands_log (L := fun log => phase t log = .before) fun _ _ => phase_before_cons

/-- The data command starts the phase that the driver knows. -/
theorem runState_dataCommand (argument : UInt32) :
    Triple (Receiving ph words n fun w => phase t w.log = .before)
      (commandR1 access t.dataCommand argument)
      (fun status w => status = .ok → Receiving ph words n (RunState t) w) fun _ => True := by
  refine (keepingCommands_untaken.dataCommand (T := Receiving ph words n (RunState t))
    (A := Receiving ph words n (RunState t)) ?_ keeping_runState.access ?_ ?_ argument).conseq
    (fun w h => h) (fun status w h => h.1) fun _ _ => trivial
  · exact fun c w h => h.note fun _ h => by simpa [phase_cons, Phase.next] using h
  · exact fun w h => ⟨h.fixed, fun hs => (pollState_taken (h.holds hs.2)).runState⟩
  · exact fun w h => h.note fun _ h => h.note id (by rintro s ⟨⟩)

/-! ## The data -/

/-- The data phase is over and the words have been copied, or it is faulty. -/
def Delivered (ph : List Event → Phase) (words : List UInt32) (n : ℕ) (ram : ℕ → UInt32) (b : ℕ)
    (w : World) : Prop :=
  (Receiving ph words n (CopiedTo words ram b (b + n) 0) w ∧
      Receiving ph words n (fun w => ph w.log = .done) w) ∨
    Receiving ph words n (fun w => ph w.log = .faulty) w

/-- When the phase is over and the FIFO is empty, all words have been copied. -/
theorem delivered_of_drained (hph : Watches t ph) {w : World}
    (h : Receiving ph words n (fun w => CopiedTo words ram b p 0 w ∧ w.sdio.fifo = []) w)
    (hsettled : Receiving ph words n (fun w => (ph w.log).Settled) w) :
    Delivered ph words n ram b w := by
  by_cases hfaulty : ph w.log = .faulty
  · exact Or.inr (hsettled.imp fun _ => hfaulty)
  have hdone : Receiving ph words n (fun w => ph w.log = .done) w :=
    hsettled.imp fun hs => hs.resolve_left hfaulty
  refine Or.inl ⟨⟨h.fixed, fun hs => ?_⟩, hdone⟩
  obtain ⟨⟨hcopied, -⟩, hfifo⟩ := h.holds hs
  have hreceived := ArrivesOk.length_eq hph hs (hdone.holds hs)
  have hread : (wordsRead w.log).length = n := by
    rw [← hreceived, hcopied.conserved, hfifo, List.append_nil]
  obtain rfl : b + n = p := hread ▸ hcopied.pointer
  exact ⟨hcopied, Nat.zero_le _⟩

/-- The data of a polled read, with what follows the second loop. -/
theorem delivered_polled (hph : Watches t ph) {ended : Flag} {rest : Program World SdError}
    (hmask : ∀ f ∈ pollFlags .rxore ended, f ∈ t.errors ++ t.ends)
    (hcopied : Keeps (Receiving ph words n (CopiedTo words ram b (b + n) 0)) rest)
    (hfinal : ∀ p : Phase, p.Settled → Keeps (Receiving ph words n fun w => ph w.log = p) rest) :
    Triple (fun w => Receiving ph words n (CopiedTo words ram b b 0) w ∧
        Receiving ph words n (RunState t) w)
      (do
        let ptempbuff ← pollReceive ended b
        ifOk (checkFaults access (dataFaults .rxore .rxOverrunError)) do
          drainFifo ptempbuff
          rest)
      (fun status w => status = .ok → Delivered ph words n ram b w) fun _ => True := by
  have hsettled : KeepingCommands (fun index _ => index ≠ t.dataCommand)
      (Receiving ph words n fun w => (ph w.log).Settled) := keepingCommands_settled hph
  refine Triple.bind ((copiedTo_pollReceive ended).and
    (keeping_runState.pollReceive ended b)).forget fun ptempbuff => ?_
  refine Triple.ifOk (Q := fun _ w => Receiving ph words n (CopiedTo words ram b ptempbuff 0) w ∧
      Receiving ph words n (fun w => (ph w.log).Settled) w)
    (((copiedTo_checkFaults _).and (hsettled.checkFaults _)).triple.strengthen ?_) ?_
    fun status w hne _ hok => absurd hok hne
  · rintro w ⟨hw, hrun, hset⟩
    exact ⟨hw, hrun.imp fun h => hph.settles _ (h.settled hmask hset)⟩
  refine Triple.bind (Q := fun _ => Delivered ph words n ram b) ?_ fun _ => ?_
  · refine (copiedTo_drainFifo.and (hsettled.drainFifo ptempbuff)).weaken ?_
      fun _ _ => trivial
    rintro _ w ⟨⟨p, hdrained⟩, hw⟩
    exact delivered_of_drained hph hdrained hw
  · exact ((hcopied.and (hfinal .done (Or.inr rfl))).or
      (hfinal .faulty (Or.inl rfl))).triple.imp fun _ _ h _ => h

theorem delivered_data (hph : Watches t ph) (hread : t.isRead) (blocksize : UInt16) :
    Triple (fun w => Receiving ph words n (CopiedTo words ram b b 0) w ∧
        Receiving ph words n (RunState t) w)
      (t.data b blocksize) (fun status w => status = .ok → Delivered ph words n ram b w)
      fun _ => True := by
  have hfinal : ∀ {p : Phase}, p.Settled → KeepingCommands (fun index _ => index ≠ t.dataCommand)
      (Receiving ph words n fun w => ph w.log = p) := fun hp => keepingCommands_final hph hp
  cases t with
  | blockRead =>
    refine Triple.polled (fun _ hw => hw.1.fixed) (delivered_polled hph (by decide) ?_ ?_)
    · exact (copiedTo_flagClear _).bind fun _ => Keeps.pure _
    · exact fun p hp => ((hfinal hp).flagClear _).bind fun _ => Keeps.pure _
  | multiblocksRead =>
    refine Triple.polled (fun _ hw => hw.1.fixed) (delivered_polled hph (by decide) ?_ ?_)
    · exact Keeps.ifOk copiedTo_stopPolled ((copiedTo_flagClear _).bind fun _ => Keeps.pure _)
    · exact fun p hp => Keeps.ifOk (hfinal hp).stopPolled
        (((hfinal hp).flagClear _).bind fun _ => Keeps.pure _)
  | blockWrite => exact absurd hread (by decide)
  | multiblocksWrite => exact absurd hread (by decide)

/-! ## The call -/

/-- No word has been read, and the data command has not been taken. -/
def Unread (t : Transfer) (ph : List Event → Phase) (words : List UInt32) (n : ℕ)
    (ram : ℕ → UInt32) (b : ℕ) (w : World) : Prop :=
  Receiving ph words n (CopiedTo words ram b b 0) w ∧
    Receiving ph words n (fun w => phase t w.log = .before) w

theorem unread_access : Keeps (Unread t ph words n ram b) access :=
  copiedTo_access.and keepingCommands_untaken.access

theorem Unread.set {w : World} (h : Unread t ph words n ram b w) (s : Setting) :
    Unread t ph words n ram b (w.note (.set s)) :=
  ⟨h.1.note fun _ h => h.note nofun nofun, keepingCommands_untaken.setUp s w h.2⟩

/-- The variables that a transfer writes say nothing about the words. -/
theorem Unread.setDrv {w : World} {f : Driver → Driver} (h : Unread t ph words n ram b w)
    (hmode : (f w.drv).transmode = w.drv.transmode)
    (hcard : (f w.drv).cardtype = w.drv.cardtype) : Unread t ph words n ram b (w.setDrv f) :=
  ⟨h.1.update rfl hmode hcard id, h.2.update rfl hmode hcard id⟩

/-- A read from its data command on. -/
theorem delivered_readCommand (hph : Watches t ph) (hread : t.isRead) (total argument : UInt32)
    (blocksize : UInt16) :
    Triple (Unread t ph words n ram b) (do
        writeShared fun drv => { drv with stopcondition := t.stop }
        setDrv fun drv => { drv with totalnumberBytes := total }
        startData blocksize true
        ifOk (commandR1 access t.dataCommand argument) (t.data b blocksize))
      (fun status w => status = .ok → Delivered ph words n ram b w) fun _ => True := by
  refine Triple.bind (Q := fun _ => Unread t ph words n ram b)
    (Triple.writeShared unread_access fun _ h => h.setDrv rfl rfl).forget fun _ => ?_
  refine Triple.bind (Q := fun _ => Unread t ph words n ram b)
    (Triple.setDrv fun _ h => h.setDrv rfl rfl) fun _ => ?_
  refine Triple.bind ((copiedTo_startData blocksize true).and
    (keepingCommands_untaken.startData blocksize true)).forget fun _ => ?_
  refine Triple.ifOk ((copiedTo_commandR1 t.dataCommand argument).triple.and
    (runState_dataCommand argument)).forget ?_ fun status w hne _ hok => absurd hok hne
  exact (delivered_data hph hread blocksize).strengthen fun w hw => ⟨hw.1, hw.2 rfl⟩

theorem delivered_run (hph : Watches t ph) (hread : t.isRead) {blocksnumber : UInt32}
    (hperforms : t = .multiblocksRead → 1 < blocksnumber) (addr : UInt32) (blocksize : UInt16) :
    Triple (Unread t ph words n ram b) (t.run (some b) addr blocksize blocksnumber)
      (fun status w => status = .ok → Delivered ph words n ram b w) fun _ => True := by
  have hsetup : ∀ {rest : ℕ → UInt32 → UInt16 → Program World SdError},
      (∀ addr blocksize, Triple (Unread t ph words n ram b) (rest b addr blocksize)
        (fun status w => status = .ok → Delivered ph words n ram b w) fun _ => True) →
      Triple (Unread t ph words n ram b) (transferSetup (some b) addr blocksize rest)
        (fun status w => status = .ok → Delivered ph words n ram b w) fun _ => True := by
    intro rest hrest
    refine Triple.transferSetup unread_access (fun s _ h => h.set s)
      (fun _ h => h.setDrv rfl rfl) unread_access (fun _ h => h.setDrv rfl rfl) unread_access
      (fun _ h => h.setDrv rfl rfl) (fun _ _ hok => absurd hok (by decide))
      (fun _ _ hok => absurd hok (by decide)) (fun _ _ hok => absurd hok (by decide))
      (fun _ _ => trivial) ?_
    rintro _ addr' blocksize' - ⟨-, -, hb, -⟩
    obtain rfl := Option.some.inj hb
    have hcommand : Keeps (Unread t ph words n ram b)
        (commandR1 access 16 blocksize'.toUInt32) :=
      (copiedTo_commandR1 _ _).and (keepingCommands_untaken.plainCommand (by decide))
    exact Triple.ifOk hcommand.triple (hrest addr' blocksize') fun _ _ hne _ hok => absurd hok hne
  cases t with
  | blockRead =>
    rw [Transfer.run, sdBlockRead]
    exact hsetup fun addr blocksize =>
      delivered_readCommand (t := .blockRead) hph rfl blocksize.toUInt32 addr blocksize
  | multiblocksRead =>
    rw [Transfer.run, sdMultiblocksRead]
    refine hsetup fun addr blocksize => ?_
    rw [if_pos (hperforms rfl)]
    refine Triple.ite (fun _ => Triple.pure _ fun _ _ hok => absurd hok (by decide)) fun _ => ?_
    exact delivered_readCommand (t := .multiblocksRead) hph rfl
      (blocksnumber * blocksize.toUInt32) addr blocksize
  | blockWrite => exact absurd hread (by decide)
  | multiblocksWrite => exact absurd hread (by decide)

end Copying

/-- The `n` words received in a run are in the buffer at `b`, in their order, each of them was
read once and none is left, and no other word of the memory has been written. -/
structure HoldsReceived (w w' : World) (b n : ℕ) : Prop where
  length : (wordsReceived w.sdio.fifo w'.log).length = n
  buffer : bufferWords w'.ram b n = wordsReceived w.sdio.fifo w'.log
  frame : ∀ q, q < b ∨ b + n ≤ q → w'.ram q = w.ram q
  read : wordsRead w'.log = wordsReceived w.sdio.fifo w'.log
  empty : w'.sdio.fifo = []

/-- A polled read that returns `SD_OK`, and of whose data phase a monitor does not say that it was
faulty, has moved the words that arrived to its buffer, and the phase is over. -/
theorem read_holdsReceived {t : Transfer} {ph : List Event → Phase} (hph : Watches t ph)
    (hread : t.isRead) {w w' : World} (hlog : w.log = [])
    (hmode : w.drv.transmode = sdPollingMode) {b n : ℕ} {addr : UInt32} {blocksize : UInt16}
    {blocksnumber : UInt32} (hperforms : t = .multiblocksRead → 1 < blocksnumber)
    (hrun : exec (t.run (some b) addr blocksize blocksnumber) w = (some .ok, w'))
    (harrives : ArrivesOk ph w.sdio.fifo n w'.log) (hclean : ph w'.log ≠ .faulty) :
    HoldsReceived w w' b n := by
  have hstart : Unread t ph w.sdio.fifo n w.ram b w := by
    refine ⟨⟨hmode, fun _ => ⟨?_, Nat.zero_le _⟩⟩, hmode, fun _ => ?_⟩
    · rw [hlog]
      exact Copied.start
    · rw [hlog]
      rfl
  have hdelivered : Delivered ph w.sdio.fifo n w.ram b w' :=
    (delivered_run hph hread hperforms addr blocksize).of_eq_some hstart hrun rfl
  obtain ⟨hcopied, hdone⟩ := hdelivered.resolve_right fun h => hclean (h.holds harrives)
  obtain ⟨hcopied, -⟩ := hcopied.holds harrives
  have hlength := ArrivesOk.length_eq hph harrives (hdone.holds harrives)
  have hcount : (wordsRead w'.log).length = n := Nat.add_left_cancel hcopied.pointer
  -- as many words have been read as were received, so none is left
  have hempty : w'.sdio.fifo = [] := by
    have hsum := congrArg List.length hcopied.conserved
    rw [List.length_append, hlength, hcount] at hsum
    exact List.length_eq_zero_iff.mp (by omega)
  have hreceived : wordsRead w'.log = wordsReceived w.sdio.fifo w'.log := by
    rw [hcopied.conserved, hempty, List.append_nil]
  exact
    { length := hlength
      buffer := by rw [← hreceived, ← hcopied.buffer, hcount]
      frame := hcopied.frame
      read := hreceived
      empty := hempty }

/-- A polled read that returns `SD_OK` has moved the words that it was to receive to its buffer,
however they arrive and whatever the flags show when. A request for one block or none makes
`sd_multiblocks_read` return without a transfer. -/
theorem reads_deliver (t : Transfer) (hread : t.isRead) (w w' : World) (hlog : w.log = [])
    (hmode : w.drv.transmode = sdPollingMode) (b : ℕ) (addr : UInt32) (blocksize : UInt16)
    (blocksnumber : UInt32) (hperforms : t = .multiblocksRead → 1 < blocksnumber)
    (hrun : exec (t.run (some b) addr blocksize blocksnumber) w = (some .ok, w'))
    (hreceives : ReceivesOk t w.sdio.fifo (w'.drv.totalnumberBytes.toNat / 4) w'.log) :
    HoldsReceived w w' b (w'.drv.totalnumberBytes.toNat / 4) :=
  read_holdsReceived (watches_phase t) hread hlog hmode hperforms hrun hreceives.arrivesOk
    hreceives.not_faulty

/-- A sample in which words can be read. -/
def rxdtvalSet : Sample :=
  { flags := [.rxdtval] }

/-- The samples of a block of sixteen words : ten of them arrive before the first loop finds
`RFH`, the others with the end of the block. -/
def readSamples : List Sample :=
  upToReadResponse ++
    [{ flags := [.rxdtval], words := (List.range 10).map UInt32.ofNat },
      { flags := [.rfh, .rxdtval] }] ++ List.replicate 8 rxdtvalSet ++
    [{ flags := [.rxdtval, .dtblkend, .dtend],
       words := (List.range 6).map fun i => UInt32.ofNat (10 + i) }] ++
    List.replicate 20 rxdtvalSet ++ quiet 2

/-- Eight of the words are read in a burst, and the others one by one. -/
theorem reads_deliver_block :
    (exec (Transfer.run .blockRead (some 100) 0 64 1) (numberedWorld readSamples)).1 = some .ok ∧
      HoldsReceived (numberedWorld readSamples)
        (exec (Transfer.run .blockRead (some 100) 0 64 1) (numberedWorld readSamples)).2
        100 16 := by
  have hok : (exec (Transfer.run .blockRead (some 100) 0 64 1)
      (numberedWorld readSamples)).1 = some .ok := by decide +kernel
  have htotal : (exec (Transfer.run .blockRead (some 100) 0 64 1)
      (numberedWorld readSamples)).2.drv.totalnumberBytes = 64 := by decide +kernel
  have hdeliver := reads_deliver .blockRead rfl _ _ rfl rfl 100 0 64 1 nofun (exec_of_fst hok)
    (by decide +kernel)
  rw [htotal] at hdeliver
  exact ⟨hok, hdeliver⟩

end Gd32Firmware
