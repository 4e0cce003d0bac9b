import Gd32Firmware.FatRead

/-!
# Writing a file

`fWrite_returns` : `f_write` puts the caller's bytes into the file from the pointer on and leaves
all other bytes of the file as they were, taking clusters for the file as it needs them. It
writes fewer bytes only if there is no free cluster, and then reports how many.
-/

namespace Gd32Firmware

open Program FatGeometry

variable {σ : Type}

/-! ## The steps of the loop -/

section Steps

variable {d : Storage σ} {P : Set UInt32} {h h' : Handle σ} {l l' : List UInt32} {n k : ℕ}
  {buff : ℕ → UInt8} {bw btw : UInt32}

/-- Bytes of a file, with so many bytes of the caller's memory over them from `p₀` on. -/
def overwritten (b : ℕ → UInt8) (buff : ℕ → UInt8) (p₀ k p : ℕ) : UInt8 :=
  if p₀ ≤ p ∧ p < p₀ + k then buff (p - p₀) else b p

/-- A call of `create_chain` that leaves the chain or makes it longer, and what `f_write` makes
of its answer. -/
theorem Handle.Fits.turns {v : Volume σ} {c s : UInt32} (hf : h.Fits d P l) {r : List UInt32}
    (ht : h.vol.Turns d v l (l ++ r)) (hstart : s = (l ++ r).headD 0) :
    h.Grows d P { vol := v, fil := { h.fil with clust := c, sclust := s } } l (l ++ r) := by
  have hg := ht.geometry
  have hcsect : h.vol.fs.sectors l ≤ h.vol.fs.sectors (l ++ r) := by
    rw [sectors_append]
    exact Nat.le_add_right ..
  have hview : ∀ n < h.vol.fs.sectors l, v.view d (h.vol.fs.fileSect l n) =
      h.vol.view d (h.vol.fs.fileSect l n) :=
    fun n hn => ht.view _ (fileSect_not_inFat hf.owned.geometry hf.owned.mem hn)
  refine ⟨⟨hf.owned.turns ht, hstart, ?_, hf.pos, fun hw => ?_, fun hw p hp hs => ?_⟩,
    hf.owned.keeps ht.spares, ht.toRelinks, ⟨r, rfl⟩, fun p hp => ?_⟩
  · simp only [hg]
    have hsize := hf.size
    omega
  · obtain ⟨n, hn, hsect⟩ := hf.dirty hw
    simp only [hg]
    exact ⟨n, hn.trans_le hcsect, by rw [hsect, fileSect_append hn]⟩
  · simp only [hg] at hs ⊢
    rw [fileSect_append (hf.div_lt hp)] at hs
    rw [← hs, hview _ (hf.div_lt hp), hs]
    exact hf.clean hw p hp hs
  · simp only [Handle.byte, hg, fileSect_append hp, hview _ hp]

/-- On a cluster boundary `f_write` finds the next cluster of the file, or takes a free one. -/
theorem writeCluster_returns (hf : h.Fits d P l) (hat : h.At l)
    (hsect : h.fil.fptr.toNat % 512 = 0)
    (hclust : h.sectNo % h.vol.fs.csize.toNat = 0) :
    Returns (writeCluster d h.fil.fptr) h fun clst h' => h'.fil = h.fil ∧
      ((∃ r, h.vol.fs.IsCluster clst ∧ h.vol.Turns d h'.vol l (l ++ r) ∧
          (l ++ r)[h.sectNo / h.vol.fs.csize.toNat]? = some clst) ∨
        (clst = 0 ∧ h.vol.Turns d h'.vol l l ∧ h'.vol.NoRoom d) ∨
        (clst = 1 ∧ h.vol.Turns d h'.vol l l ∧ h.vol.Broken d) ∨
        (clst = diskError ∧ ¬ d.Reliable ∧ h.vol.Spares d h'.vol l)) := by
  have hg := hf.owned.geometry
  have hchained := hf.owned.toChained
  unfold writeCluster
  rw [returns_bind, returns_getFil]
  by_cases h0 : h.fil.fptr = 0
  · have hzero : h.sectNo / h.vol.fs.csize.toNat = 0 := by
      simp [Handle.sectNo, h0]
    have hstart := hf.start
    rw [if_pos h0, hzero]
    cases l with
    | nil =>
      rw [if_pos (by rw [hstart]; rfl), returns_onVol]
      refine (createChain_grows hchained (.inl ⟨rfl, rfl⟩)).imp ?_
      rintro val v' (hfull | hbroken | ⟨hval, ht⟩ | hd)
      · exact ⟨rfl, .inr (.inl hfull)⟩
      · exact ⟨rfl, .inr (.inr (.inl hbroken))⟩
      · exact ⟨rfl, .inl ⟨[val], hval, ht, rfl⟩⟩
      · exact ⟨rfl, .inr (.inr (.inr hd))⟩
    | cons a l =>
      have ha := hf.owned.mem a (by simp)
      have hsclust : h.fil.sclust = a := hstart
      rw [if_neg (by rw [hsclust]; exact ne_zero_of_cluster ha), hsclust]
      refine ⟨rfl, .inl ⟨[], ha, ?_, rfl⟩⟩
      rw [List.append_nil]
      exact hchained.reads (.refl hf.owned.coherent)
  · have hpos : 0 < h.fil.fptr.toNat := Nat.pos_of_ne_zero fun h => h0 (UInt32.toNat_inj.1 h)
    obtain ⟨k, hk, hcur⟩ := hat.before hpos hsect hclust hg.csize_pos
    rw [if_neg h0, hk, returns_onVol]
    refine (createChain_next hchained hcur).imp ?_
    rintro val v' (⟨r, hval, ht, hnext, -⟩ | ⟨rfl, -, hfull⟩ | hbroken | hd)
    · exact ⟨rfl, .inl ⟨r, hval, ht, hnext⟩⟩
    · exact ⟨rfl, .inr (.inl ⟨rfl, hfull⟩)⟩
    · exact ⟨rfl, .inr (.inr (.inl hbroken))⟩
    · exact ⟨rfl, .inr (.inr (.inr hd))⟩

/-- The first cluster of a file, as `f_write` records it. -/
theorem Handle.Fits.start_append (hf : h.Fits d P l) {r : List UInt32} {c : UInt32}
    (hget : (l ++ r)[h.sectNo / h.vol.fs.csize.toNat]? = some c) :
    (if h.fil.sclust = 0 then c else h.fil.sclust) = (l ++ r).headD 0 := by
  have hstart := hf.start
  cases l with
  | nil =>
    have hsize := hf.size
    have hpos := hf.pos
    have hzero : h.sectNo = 0 := by
      simp [FatGeometry.sectors] at hsize
      unfold Handle.sectNo
      omega
    rw [hzero, Nat.zero_div] at hget
    rw [if_pos (show h.fil.sclust = 0 from hstart)]
    cases r with
    | nil => simp at hget
    | cons b r => simpa using hget.symm
  | cons a l =>
    have ha := ne_zero_of_cluster (hf.owned.mem a (by simp))
    have hsclust : h.fil.sclust = a := hstart
    rw [hsclust, if_neg ha]
    rfl

/-- What `f_write` does on a cluster boundary, and where there is none. -/
theorem writeStart_returns (hf : h.Fits d P l) (hat : h.At l) :
    Returns (writeStart d) h fun r h' =>
      h.vol.Keeps d P h'.vol ∧
        ((∃ l', r = .ok true ∧ h.Grows d P h' l l' ∧ h'.ClustAt l' h.sectNo ∧
            h'.fil = { h.fil with clust := h'.fil.clust, sclust := h'.fil.sclust }) ∨
          (r = .ok false ∧ h.Grows d P h' l l ∧ h'.At l ∧ h'.fil = h.fil ∧ h'.vol.NoRoom d) ∨
          (r = .error .frIntErr ∧ h.vol.Broken d) ∨ (r = .error .frDiskErr ∧ ¬ d.Reliable)) := by
  have hg := hf.owned.geometry
  unfold writeStart
  rw [returns_bind, returns_onVol, returns_getFs, returns_bind, returns_getFil]
  refine Returns.ite (fun hb => ?_) fun hb => ?_
  swap
  · rw [mod_512_eq_zero, csect_eq_zero hg] at hb
    exact ⟨.refl hf.owned.coherent,
      .inl ⟨l, rfl, .refl hf, hat.within hg.csize_pos hb, rfl⟩⟩
  rw [mod_512_eq_zero, csect_eq_zero hg] at hb
  unfold writeClust
  refine Returns.bind (writeCluster_returns hf hat hb.1 hb.2) ?_
  rintro clst ⟨v, f⟩ ⟨rfl, ⟨r, hcl, ht, hget⟩ | ⟨rfl, ht, hroom⟩ | ⟨rfl, ht, hbroken⟩ |
    ⟨rfl, hd, hs⟩⟩
  · have hne1 : clst ≠ 1 := by
      rintro rfl
      exact absurd hcl.1 (by decide)
    rw [if_neg (ne_zero_of_cluster hcl), if_neg hne1, if_neg (cluster_ne_diskError hg hcl)]
    have hgrows := hf.turns (c := clst) ht (hf.start_append hget)
    refine ⟨hgrows.keeps, .inl ⟨l ++ r, rfl, hgrows, ?_, rfl⟩⟩
    have hget' := hget
    rw [← ht.toAlters.geometry] at hget'
    exact hget'
  · have hgrows := hf.turns (c := h.fil.clust) (r := []) (by simpa using ht)
      (by simpa using hf.start)
    rw [List.append_nil] at hgrows
    have hat' : Handle.At { vol := v, fil := h.fil } l := by
      refine ⟨fun hpos => ?_, fun hne => ?_⟩
      · have hclust := hat.clust hpos
        rwa [← ht.toAlters.geometry] at hclust
      · have hsect := hat.sect hne
        rwa [← ht.toAlters.geometry] at hsect
    exact ⟨hgrows.keeps, .inr (.inl ⟨rfl, hgrows, hat', rfl, hroom⟩)⟩
  · exact ⟨hf.owned.keeps ht.spares, .inr (.inr (.inl ⟨rfl, hbroken⟩))⟩
  · exact ⟨hf.owned.keeps hs, .inr (.inr (.inr ⟨rfl, hd⟩))⟩

/-- The pointer is moved on behind bytes that have been written. -/
def Handle.advance (h : Handle σ) (wcnt : UInt32) : Handle σ :=
  { h with fil := h.fil.advance wcnt }

/-- So many bytes of the caller's memory have been written at the pointer, which has moved on as
far. -/
structure Handle.Puts (d : Storage σ) (P : Set UInt32) (h h' : Handle σ) (l l' : List UInt32)
    (k : ℕ) (data : ℕ → UInt8) : Prop extends Handle.Fits d P h' l' where
  keeps : h.vol.Keeps d P h'.vol
  relinks : h.vol.Relinks d h'.vol l l'
  at_ : h'.At l'
  ptr : h'.fil.fptr.toNat = h.fil.fptr.toNat + k
  grown : h'.fil.objsize.toNat = max h.fil.objsize.toNat (h.fil.fptr.toNat + k)
  byte : ∀ p < h'.fil.objsize.toNat,
    h'.byte d l' p = overwritten (h.byte d l) data h.fil.fptr.toNat k p
  fil : h'.fil = { h.fil with
    sclust := h'.fil.sclust, objsize := h'.fil.objsize, faModified := h'.fil.faModified,
    faDirty := h'.fil.faDirty, fptr := h'.fil.fptr, clust := h'.fil.clust,
    sect := h'.fil.sect, buf := h'.fil.buf }

theorem Handle.Puts.refl (hf : h.Fits d P l) (hat : h.At l) (data : ℕ → UInt8) :
    h.Puts d P h l l 0 data := by
  have hrefl := Handle.Grows.refl hf
  have hpos := hf.pos
  refine ⟨hf, hrefl.keeps, hrefl.relinks, hat, rfl, by omega, fun p _ => ?_, rfl⟩
  rw [overwritten, if_neg (by omega)]

theorem Handle.Puts.trans {h'' : Handle σ} {l'' : List UInt32} {k' : ℕ} {data data' : ℕ → UInt8}
    (hp : h.Puts d P h' l l' k data) (hp' : h'.Puts d P h'' l' l'' k' data')
    (hdata : ∀ i, data' i = data (k + i)) : h.Puts d P h'' l l'' (k + k') data := by
  have hptr := hp.ptr
  have hsize := hp.grown
  have hsize' := hp'.grown
  refine ⟨hp'.toFits, hp.keeps.trans hp'.keeps, hp.relinks.trans hp'.relinks, hp'.at_,
    by rw [hp'.ptr, hptr, add_assoc], by omega, fun p hlt => ?_, by rw [hp'.fil, hp.fil]⟩
  rw [hp'.byte p hlt]
  unfold overwritten
  by_cases hin : h'.fil.fptr.toNat ≤ p ∧ p < h'.fil.fptr.toNat + k'
  · rw [if_pos hin, if_pos (by omega), hdata]
    congr 1
    omega
  · rw [if_neg hin, hp.byte p (by omega), overwritten]
    by_cases hfirst : h.fil.fptr.toNat ≤ p ∧ p < h.fil.fptr.toNat + k
    · rw [if_pos hfirst, if_pos (by omega)]
    · rw [if_neg hfirst, if_neg (by omega)]

/-- What has been written behind a step that left the bytes as they were. -/
theorem Handle.Grows.puts {h'' : Handle σ} {data : ℕ → UInt8} (hf : h.Fits d P l)
    (hg : h.Grows d P h' l l') (hp : h'.Puts d P h'' l' l' k data)
    (hfil : h'.fil = { h.fil with
      sclust := h'.fil.sclust, faDirty := h'.fil.faDirty, clust := h'.fil.clust,
      sect := h'.fil.sect, buf := h'.fil.buf }) :
    h.Puts d P h'' l l' k data := by
  have hptr : h'.fil.fptr = h.fil.fptr := by rw [hfil]
  have hsize : h'.fil.objsize = h.fil.objsize := by rw [hfil]
  have hpos := hf.pos
  have hgrown := hp.grown
  rw [hsize, hptr] at hgrown
  refine ⟨hp.toFits, hg.keeps.trans hp.keeps, hg.relinks.trans hp.relinks, hp.at_,
    by rw [hp.ptr, hptr], hgrown, fun p hlt => ?_, by rw [hp.fil, hfil]⟩
  rw [hp.byte p hlt, hptr]
  unfold overwritten
  by_cases hin : h.fil.fptr.toNat ≤ p ∧ p < h.fil.fptr.toNat + k
  · rw [if_pos hin, if_pos hin]
  · rw [if_neg hin, if_neg hin]
    exact hg.byte p (hf.div_lt (by omega))

/-- The pointer and the size after an advance that does not leave the numbers of 32 bits. -/
theorem Fil.toNat_advance (f : Fil) {wcnt : UInt32} (hk : wcnt.toNat = k)
    (hlt : f.fptr.toNat + k < 2 ^ 32) :
    (f.advance wcnt).fptr.toNat = f.fptr.toNat + k ∧
      (f.advance wcnt).objsize.toNat = max f.objsize.toNat (f.fptr.toNat + k) := by
  have hptr : (f.fptr + wcnt).toNat = f.fptr.toNat + k := by
    rw [UInt32.toNat_add, hk]
    exact Nat.mod_eq_of_lt hlt
  refine ⟨hptr, ?_⟩
  simp only [Fil.advance, UInt32.lt_iff_toNat_lt, apply_ite UInt32.toNat, hptr]
  split_ifs <;> omega

/-- The sectors of the cluster are sectors of the file. -/
theorem Handle.ClustAt.add_lt (hc : h.ClustAt l n) {i : ℕ}
    (hi : n % h.vol.fs.csize.toNat + i < h.vol.fs.csize.toNat) : n + i < h.vol.fs.sectors l := by
  obtain ⟨hlt, -⟩ := List.getElem?_eq_some_iff.1 hc
  rw [← (add_div_csize hi).1] at hlt
  exact (Nat.div_lt_iff_lt_mul (by omega)).1 hlt

/-- Whole sectors have been written, and the buffer has been filled again if it is one of
them. -/
theorem Handle.Fits.puts_sectors {v : Volume σ} {b : Sector} {m : ℕ} {data : ℕ → UInt8}
    {wcnt : UInt32} (hf : h.Fits d P l) (hclean : h.fil.faDirty = false)
    (hc : h.ClustAt l h.sectNo) (hsect : h.fil.fptr.toNat % 512 = 0) (hm : 0 < m)
    (hclip : h.sectNo % h.vol.fs.csize.toNat + m ≤ h.vol.fs.csize.toNat)
    (hw : h.vol.Wrote d P v l h.sectNo m)
    (hview : ∀ i < m, v.view d (h.vol.fs.fileSect l (h.sectNo + i)) = chunks data 0 i)
    (hin : ∀ i < m, h.fil.sect = h.vol.fs.fileSect l (h.sectNo + i) → b = chunks data 0 i)
    (hout : (∀ i < m, h.fil.sect ≠ h.vol.fs.fileSect l (h.sectNo + i)) → b = h.fil.buf)
    (hk : wcnt.toNat = 512 * m) (hlt : h.fil.fptr.toNat + 512 * m < 2 ^ 32) :
    h.Puts d P (Handle.advance { vol := v, fil := { h.fil with buf := b, faDirty := false } } wcnt)
      l l (512 * m) data := by
  have hg := hf.owned.geometry
  have hfs := hw.fs
  have hpos := hf.pos
  have hcsect := hf.size
  have hrange : ∀ i < m, h.sectNo + i < h.vol.fs.sectors l := fun i hi => hc.add_lt (by omega)
  obtain ⟨hptr, hgrown⟩ := Fil.toNat_advance { h.fil with buf := b, faDirty := false } hk hlt
  simp only at hptr hgrown
  have hptr0 : h.fil.fptr.toNat = 512 * h.sectNo := by
    unfold Handle.sectNo
    omega
  -- a byte behind the pointer is one of the transfer, or in a sector that has not changed
  have hcases : ∀ p < max h.fil.objsize.toNat (h.fil.fptr.toNat + 512 * m),
      (∃ i < m, p / 512 = h.sectNo + i ∧ h.fil.fptr.toNat ≤ p ∧ p < h.fil.fptr.toNat + 512 * m) ∨
      ((∀ i < m, p / 512 ≠ h.sectNo + i) ∧ p < h.fil.objsize.toNat ∧
        ¬ (h.fil.fptr.toNat ≤ p ∧ p < h.fil.fptr.toNat + 512 * m)) := by
    intro p hp
    by_cases hin : h.fil.fptr.toNat ≤ p ∧ p < h.fil.fptr.toNat + 512 * m
    · exact .inl ⟨p / 512 - h.sectNo, by omega, by omega, hin⟩
    · exact .inr ⟨fun i hi => by omega, by omega, hin⟩
  have hother : ∀ p, (∀ i < m, p / 512 ≠ h.sectNo + i) → p < h.fil.objsize.toNat →
      ∀ i < m, h.vol.fs.fileSect l (p / 512) ≠ h.vol.fs.fileSect l (h.sectNo + i) :=
    fun p hne hp i hi heq => hne i hi (hf.inj (hf.div_lt hp) (hrange i hi) heq)
  have hchunk : ∀ i p, p / 512 = h.sectNo + i → h.fil.fptr.toNat ≤ p →
      (chunks data 0 i).at p = data (p - h.fil.fptr.toNat) := by
    intro i p hp hle
    simp only [chunks, Sector.at]
    congr 1
    omega
  refine ⟨⟨hw.owned, hf.start, ?_, ?_, fun hd => absurd hd Bool.false_ne_true, fun _ p hp hs => ?_⟩,
    hw.toKeeps, hw.relinks hf.owned,
    ⟨fun _ => ?_, fun hne => ?_⟩, hptr, hgrown, fun p hp => ?_, rfl⟩
  · rw [Handle.advance, hgrown]
    simp only [hfs]
    have hlast := hrange (m - 1) (by omega)
    omega
  · rw [Handle.advance, hptr, hgrown]
    exact le_max_right ..
  · rw [Handle.advance, hgrown] at hp
    simp only [Handle.advance, Fil.advance, hfs] at hs ⊢
    obtain ⟨i, hi, hpi, -⟩ | ⟨hne, hp', -⟩ := hcases p hp
    · rw [hpi] at hs
      rw [hin i hi hs.symm, ← hs, hview i hi]
    · have hnot := hother p hne hp'
      rw [hs] at hnot
      rw [hout hnot, hw.other _ hnot]
      exact hf.clean hclean p hp' hs
  · obtain ⟨hlast, -⟩ := add_div_csize (n := h.sectNo) (i := m - 1) (c := h.vol.fs.csize.toNat)
      (by omega)
    have hend : (h.fil.fptr.toNat + 512 * m - 1) / 512 = h.sectNo + (m - 1) := by omega
    simp only [Handle.advance, hptr, hfs, hend, hlast]
    exact hc
  · simp only [Handle.advance, hptr] at hne
    omega
  · rw [Handle.advance, hgrown] at hp
    rw [Handle.byte_of_clean rfl]
    simp only [Handle.advance, hfs]
    unfold overwritten
    obtain ⟨i, hi, hpi, hin'⟩ | ⟨hne, hp', hnot⟩ := hcases p hp
    · rw [if_pos hin', hpi, hview i hi, hchunk i p hpi hin'.1]
    · rw [if_neg hnot, hw.other _ (hother p hne hp'), Handle.byte_of_clean hclean]

/-- Bytes have been written to the buffer, which holds the sector of the pointer. -/
theorem Handle.Fits.puts_buffer {b : Sector} {data : ℕ → UInt8} {wcnt : UInt32}
    (hf : h.Fits d P l) (hc : h.ClustAt l h.sectNo)
    (hsect : h.fil.sect = h.vol.fs.fileSect l h.sectNo) (hk0 : 0 < k)
    (hkle : h.fil.fptr.toNat % 512 + k ≤ 512)
    (hin : ∀ p, h.fil.fptr.toNat ≤ p → p < h.fil.fptr.toNat + k →
      b.at p = data (p - h.fil.fptr.toNat))
    (hout : ∀ p, p / 512 = h.sectNo → ¬ (h.fil.fptr.toNat ≤ p ∧ p < h.fil.fptr.toNat + k) →
      b.at p = h.fil.buf.at p)
    (hk : wcnt.toNat = k) (hlt : h.fil.fptr.toNat + k < 2 ^ 32) :
    h.Puts d P (Handle.advance { h with fil := { h.fil with buf := b, faDirty := true } } wcnt)
      l l k data := by
  have hg := hf.owned.geometry
  have hpos := hf.pos
  have hsize := hf.size
  have hn := hc.add_lt (i := 0) (Nat.mod_lt _ hg.csize_pos)
  rw [add_zero] at hn
  have hrefl := Handle.Grows.refl hf
  obtain ⟨hptr, hgrown⟩ := Fil.toNat_advance { h.fil with buf := b, faDirty := true } hk hlt
  simp only at hptr hgrown
  have hend : (h.fil.fptr.toNat + k - 1) / 512 = h.sectNo ∧
      ((h.fil.fptr.toNat + k) % 512 ≠ 0 → (h.fil.fptr.toNat + k) / 512 = h.sectNo) := by
    unfold Handle.sectNo
    omega
  have hsmall : max h.fil.objsize.toNat (h.fil.fptr.toNat + k) ≤ 512 * h.vol.fs.sectors l := by
    unfold Handle.sectNo at hn
    omega
  refine ⟨⟨hf.owned, hf.start, ?_, ?_, fun _ => ⟨_, hn, hsect⟩, nofun⟩, hrefl.keeps,
    hrefl.relinks, ⟨fun _ => ?_, fun hne => ?_⟩, hptr, hgrown, fun p hp => ?_, rfl⟩
  · rw [Handle.advance, hgrown]
    exact hsmall
  · rw [Handle.advance, hptr, hgrown]
    exact le_max_right ..
  · simp only [Handle.advance, hptr, hend.1]
    exact hc
  · simp only [Handle.advance, hptr] at hne ⊢
    rw [hend.2 hne]
    exact hsect
  · rw [Handle.advance, hgrown] at hp
    have hdiv : p / 512 < h.vol.fs.sectors l := by omega
    unfold Handle.byte overwritten
    simp only [Handle.advance, Fil.advance, true_and]
    by_cases hs : h.vol.fs.fileSect l (p / 512) = h.fil.sect
    · have hno : p / 512 = h.sectNo := hf.inj hdiv hn (hs.trans hsect)
      rw [if_pos hs]
      by_cases hr : h.fil.fptr.toNat ≤ p ∧ p < h.fil.fptr.toNat + k
      · rw [if_pos hr, hin p hr.1 hr.2]
      · rw [if_neg hr, hout p hno hr]
        exact (hf.byte_buf (by omega) hs).symm
    · have hno : p / 512 ≠ h.sectNo := fun h => hs (by rw [h, hsect])
      have hr : ¬ (h.fil.fptr.toNat ≤ p ∧ p < h.fil.fptr.toNat + k) := by
        unfold Handle.sectNo at hno
        omega
      rw [if_neg hs, if_neg hr, if_neg (fun hd => hs hd.2)]

theorem chunks_eq (buff : ℕ → UInt8) (n i : ℕ) :
    chunks buff n i = chunks (fun k => buff (n + k)) 0 i := by
  funext j
  simp [chunks, add_assoc]

/-- On a sector boundary `f_write` writes whole sectors, or has the sector in the buffer. -/
theorem writeSect_returns (hf : h.Fits d P l) (hclean : h.fil.faDirty = false)
    (hc : h.ClustAt l h.sectNo) (hsect : h.fil.fptr.toNat % 512 = 0) {cs : UInt32}
    (hlt : h.fil.fptr.toNat + btw.toNat < 2 ^ 32)
    (hcs : cs.toNat = h.sectNo % h.vol.fs.csize.toNat) :
    Returns (writeSect d buff bw btw cs) h fun r h' =>
      h.vol.Keeps d P h'.vol ∧
        ((∃ wcnt, 0 < wcnt ∧ wcnt.toNat ≤ btw.toNat ∧ r = .ok wcnt ∧
            h.Puts d P (h'.advance wcnt) l l wcnt.toNat fun i => buff (bw.toNat + i)) ∨
          (r = .ok 0 ∧ h.Still d P h' l ∧
            h'.fil = { h.fil with
              sect := h.vol.fs.fileSect l h.sectNo, buf := h'.fil.buf }) ∨
          (r = .error .frDiskErr ∧ ¬ d.Reliable)) := by
  have hg := hf.owned.geometry
  have hn : h.sectNo < h.vol.fs.sectors l := hc.add_lt (i := 0) (Nat.mod_lt _ hg.csize_pos)
  have hcc : (btw / 512).toNat = btw.toNat / 512 := by
    rw [UInt32.toNat_div]
    rfl
  unfold writeSect
  simp only [returns_bind, returns_onVol, returns_getFs, returns_getFil]
  rw [if_neg (hc.sect_ne_zero hf), hc.sect_eq hcs]
  refine Returns.ite (fun hwhole => ?_) fun hpart => ?_
  · have hcs' : cs.toNat < h.vol.fs.csize.toNat := by
      rw [hcs]
      exact Nat.mod_lt _ hg.csize_pos
    have hsmall : (btw / 512).toNat < 2 ^ 24 := by
      have hlt := btw.toNat_lt
      omega
    have hclip := toNat_clip hg hcs' hsmall
    set cc := clipSectors h.vol.fs cs (btw / 512)
    rw [UInt32.lt_iff_toNat_lt, UInt32.toNat_zero] at hwhole
    have hm : 0 < cc.toNat ∧ 512 * cc.toNat ≤ btw.toNat ∧
        h.sectNo % h.vol.fs.csize.toNat + cc.toNat ≤ h.vol.fs.csize.toNat := by
      omega
    have hlast := hc.add_lt (i := cc.toNat - 1) (by omega)
    rw [returns_bind, returns_onVol]
    refine (diskWrites_file hf.owned hm.2.2 (by omega) _).imp ?_
    rintro status v ⟨hw, hr⟩
    refine Returns.ite (fun hok => ?_) fun hok => ⟨hw.toKeeps, .inr (.inr ⟨rfl, ?_⟩)⟩
    swap
    · exact (hr.resolve_left fun h => hok h.1).2
    obtain ⟨-, hview⟩ := hr.resolve_right fun h => h.1 hok
    simp only [chunks_eq buff] at hview ⊢
    have hwcnt : (512 * cc).toNat = 512 * cc.toNat := by
      rw [UInt32.toNat_mul]
      have := btw.toNat_lt
      exact Nat.mod_eq_of_lt (by simp only [UInt32.reduceToNat]; omega)
    have hpos : 0 < 512 * cc := by
      rw [UInt32.lt_iff_toNat_lt, hwcnt, UInt32.toNat_zero]
      omega
    have hrange : h.fil.sect - h.vol.fs.fileSect l h.sectNo < cc ↔
        ∃ i < cc.toNat, h.fil.sect = h.vol.fs.fileSect l h.sectNo + UInt32.ofNat i :=
      sub_lt_iff rfl
    have hputs : ∀ b : Sector, (∀ i < cc.toNat,
          h.fil.sect = h.vol.fs.fileSect l (h.sectNo + i) →
          b = chunks (fun k => buff (bw.toNat + k)) 0 i) →
        ((∀ i < cc.toNat, h.fil.sect ≠ h.vol.fs.fileSect l (h.sectNo + i)) → b = h.fil.buf) →
        h.Puts d P (Handle.advance
          { vol := v, fil := { h.fil with buf := b, faDirty := false } } (512 * cc)) l l
          (512 * cc).toNat fun i => buff (bw.toNat + i) := by
      intro b hin hout
      rw [hwcnt]
      exact hf.puts_sectors hclean hc hsect hm.1 hm.2.2 hw hview hin hout hwcnt (by omega)
    refine Returns.ite (fun hin => ?_) fun hout => ?_
    · obtain ⟨j, hj, hjsect⟩ := hrange.1 hin
      have hjnat : (h.fil.sect - h.vol.fs.fileSect l h.sectNo).toNat = j := by
        rw [hjsect, toNat_add_sub _ (hj.trans cc.toNat_lt)]
      rw [returns_bind, returns_modifyFil, hjnat]
      refine ⟨hw.toKeeps, .inl ⟨_, hpos, by rw [hwcnt]; exact hm.2.1, rfl, ?_⟩⟩
      rw [fileSect_transfer hm.2.2 hj] at hjsect
      refine hputs _ (fun i hi hs => ?_) fun hnot => absurd hjsect (hnot j hj)
      have hij := hf.inj (hc.add_lt (i := j) (by omega)) (hc.add_lt (i := i) (by omega))
        (hjsect.symm.trans hs)
      rw [show j = i by omega]
    · have hsame : { h.fil with buf := h.fil.buf, faDirty := false } = h.fil := by rw [← hclean]
      have hputs' := hputs h.fil.buf (fun i hi hs => absurd (hrange.2 ⟨i, hi, ?_⟩) hout)
        fun _ => rfl
      · rw [hsame] at hputs'
        exact ⟨hw.toKeeps, .inl ⟨_, hpos, by rw [hwcnt]; exact hm.2.1, rfl, hputs'⟩⟩
      · rw [hs, fileSect_transfer hm.2.2 hi]
  · refine Returns.ite (fun hload => ?_) fun hstay => ?_
    · rw [returns_bind, returns_onVol]
      refine (diskReads_file hf.owned (m := 1) (Nat.mod_lt _ hg.csize_pos) hn).imp ?_
      rintro ⟨status, data⟩ v ⟨hw, hr⟩
      rw [returns_bind, returns_modifyFil]
      refine Returns.ite (fun hok => ?_) fun hok => ⟨hw.toKeeps, .inr (.inr ⟨rfl, ?_⟩)⟩
      swap
      · exact (hr.resolve_left fun h => hok h.1).2
      have hdata0 : data 0 = h.vol.view d (h.vol.fs.fileSect l h.sectNo) :=
        (hr.resolve_right fun h => h.1 hok).2 0 (by decide)
      have hread := hf.read hw
      have hview : v.view d = h.vol.view d := hw.view_eq
      have hfill := hread.toFits.load (s := h.vol.fs.fileSect l h.sectNo) (b := data 0) hclean
        fun p _ _ => by rw [hdata0, hview]
      rw [returns_bind, returns_modifyFil]
      exact ⟨hw.toKeeps, .inr (.inl ⟨rfl, hread.trans hfill, rfl⟩)⟩
    · rw [returns_bind, returns_modifyFil]
      refine ⟨.refl hf.owned.coherent, .inr (.inl ⟨rfl, hf.load hclean ?_, rfl⟩)⟩
      intro p hp hs
      -- the sector is in the buffer already, or behind the end of the file
      by_cases hsame : h.fil.sect = h.vol.fs.fileSect l h.sectNo
      · rw [← hsame] at hs ⊢
        exact hf.clean hclean p hp hs
      · have hno := hf.inj (hf.div_lt hp) hn hs
        refine absurd ⟨hsame, ?_⟩ hstay
        rw [UInt32.lt_iff_toNat_lt]
        unfold Handle.sectNo at hno
        omega

/-- Whole sectors are written, or the sector of the pointer is in the buffer. -/
theorem writeFill_returns (hf : h.Fits d P l) (hc : h.ClustAt l h.sectNo)
    (hin : h.fil.fptr.toNat % 512 ≠ 0 → h.fil.sect = h.vol.fs.fileSect l h.sectNo)
    (hlt : h.fil.fptr.toNat + btw.toNat < 2 ^ 32) :
    Returns (writeFill d buff bw btw) h fun r h' =>
      h.vol.Keeps d P h'.vol ∧
        ((∃ wcnt, 0 < wcnt ∧ wcnt.toNat ≤ btw.toNat ∧ r = .ok wcnt ∧
            h.Puts d P (h'.advance wcnt) l l wcnt.toNat fun i => buff (bw.toNat + i)) ∨
          (r = .ok 0 ∧ h.Still d P h' l ∧
            h'.fil = { h.fil with
              faDirty := h'.fil.faDirty, sect := h.vol.fs.fileSect l h.sectNo,
              buf := h'.fil.buf }) ∨
          (r = .error .frDiskErr ∧ ¬ d.Reliable)) := by
  unfold writeFill
  rw [returns_bind, returns_onVol, returns_getFs, returns_bind, returns_getFil]
  refine Returns.ite (fun hb => ?_) fun hb => ?_
  swap
  · rw [mod_512_eq_zero] at hb
    refine ⟨.refl hf.owned.coherent, .inr (.inl ⟨rfl, .refl hf, ?_⟩)⟩
    rw [← hin hb]
  rw [mod_512_eq_zero] at hb
  refine Returns.bind (writeBack_returns hf) ?_
  rintro r h₁ ⟨hs, hfs, ⟨rfl, hfil⟩ | ⟨rfl, hd, -⟩⟩
  swap
  · exact ⟨hs.keeps, .inr (.inr ⟨rfl, hd⟩)⟩
  have hk := hs.keeps
  have hptr : h₁.fil.fptr = h.fil.fptr := by rw [hfil]
  have hno : h₁.sectNo = h.sectNo := by
    unfold Handle.sectNo
    rw [hptr]
  have hc₁ : h₁.ClustAt l h₁.sectNo := by
    rw [hno, Handle.ClustAt, hfs, hfil]
    exact hc
  rw [if_pos rfl]
  refine (writeSect_returns hs.toFits (by rw [hfil]) hc₁ (by rwa [hptr]) (by rwa [hptr]) ?_).imp ?_
  · rw [hno, hfs]
    exact toNat_csect hf.owned.geometry
  rintro r h₂ ⟨hk', ⟨wcnt, hpos, hle, rfl, hputs⟩ | ⟨rfl, hs', hfil'⟩ | ⟨rfl, hd⟩⟩
  · exact ⟨hk.trans hk', .inl ⟨wcnt, hpos, hle, rfl, hs.puts hf hputs (by rw [hfil])⟩⟩
  · refine ⟨hk.trans hk', .inr (.inl ⟨rfl, hs.trans hs', ?_⟩)⟩
    rw [hfil', hno, hfs, hfil]
  · exact ⟨hk.trans hk', .inr (.inr ⟨rfl, hd⟩)⟩

/-- The bytes that go to the buffer. -/
theorem writeBuffer_returns (hf : h.Fits d P l) (hc : h.ClustAt l h.sectNo)
    (hin : h.fil.sect = h.vol.fs.fileSect l h.sectNo) (hbtw : 0 < btw.toNat)
    (hlt : h.fil.fptr.toNat + btw.toNat < 2 ^ 32) :
    Returns (writeBuffer buff bw btw) h fun wcnt h' =>
      0 < wcnt.toNat ∧ wcnt.toNat ≤ btw.toNat ∧ h'.vol = h.vol ∧
        h.Puts d P (h'.advance wcnt) l l wcnt.toNat fun i => buff (bw.toNat + i) := by
  have hwcnt := toNat_clip_bytes h.fil.fptr btw
  have hmod : (h.fil.fptr % 512).toNat = h.fil.fptr.toNat % 512 := UInt32.toNat_mod ..
  unfold writeBuffer
  rw [returns_bind, returns_getFil, returns_bind, returns_modifyFil]
  refine ⟨by omega, by omega, rfl, hf.puts_buffer hc hin (by omega) (by omega) ?_ ?_ rfl (by omega)⟩
  · intro p hle hplt
    have hofs : p % 512 - h.fil.fptr.toNat % 512 = p - h.fil.fptr.toNat := by omega
    simp only [Sector.at, hmod]
    rw [if_pos (by omega), hofs]
  · intro p hno hout
    unfold Handle.sectNo at hno
    simp only [Sector.at, hmod]
    rw [if_neg (by omega)]

/-- What one round of the loop of `f_write` does. -/
theorem writeNext_returns (hf : h.Fits d P l) (hat : h.At l) (hbtw : 0 < btw.toNat)
    (hlt : h.fil.fptr.toNat + btw.toNat < 2 ^ 32) :
    Returns (writeNext d buff bw btw) h fun r h' =>
      h.vol.Keeps d P h'.vol ∧
        ((∃ l' wcnt, 0 < wcnt.toNat ∧ wcnt.toNat ≤ btw.toNat ∧ r = .ok (some wcnt) ∧
            h.Puts d P (h'.advance wcnt) l l' wcnt.toNat fun i => buff (bw.toNat + i)) ∨
          (r = .ok none ∧ h.Still d P h' l ∧ h'.At l ∧ h'.fil = h.fil ∧ h'.vol.NoRoom d) ∨
          (r = .error .frIntErr ∧ h.vol.Broken d) ∨ (r = .error .frDiskErr ∧ ¬ d.Reliable)) := by
  unfold writeNext
  refine Returns.bind (writeStart_returns hf hat) ?_
  rintro r h₁ ⟨hk, ⟨l', rfl, hg, hc, hfil⟩ | ⟨rfl, hfull⟩ | ⟨rfl, hbroken⟩ | ⟨rfl, hd⟩⟩
  · have hptr : h₁.fil.fptr = h.fil.fptr := by rw [hfil]
    have hno : h₁.sectNo = h.sectNo := by
      unfold Handle.sectNo
      rw [hptr]
    rw [← hno] at hc
    have hin : h₁.fil.fptr.toNat % 512 ≠ 0 →
        h₁.fil.sect = h₁.vol.fs.fileSect l' h₁.sectNo := by
      intro hne
      rw [hptr] at hne
      have hpos := hf.pos
      have hsize := hf.size
      have hn : h.sectNo < h.vol.fs.sectors l := by
        unfold Handle.sectNo
        omega
      obtain ⟨r, rfl⟩ := hg.tail
      rw [hno, hg.fs, fileSect_append hn, ← hat.sect hne, hfil]
    refine Returns.bind (writeFill_returns hg.toFits hc hin (by rwa [hptr])) ?_
    rintro r h₂ ⟨hk', ⟨wcnt, hpos, hle, rfl, hputs⟩ | ⟨rfl, hs, hfil'⟩ | ⟨rfl, hd⟩⟩
    · have hpos' := UInt32.lt_iff_toNat_lt.1 hpos
      refine Returns.ite (fun _ => ?_) fun hno => absurd hpos hno
      exact ⟨hk.trans hk', .inl ⟨l', wcnt, hpos', hle, rfl, hg.puts hf hputs (by rw [hfil])⟩⟩
    · have hptr' : h₂.fil.fptr = h.fil.fptr := by rw [hfil', hptr]
      have hno' : h₂.sectNo = h₁.sectNo := by
        unfold Handle.sectNo
        rw [hptr', hptr]
      have hc' : h₂.ClustAt l' h₂.sectNo := by
        rw [Handle.ClustAt, hno', hs.fs, hfil']
        exact hc
      have hsect' : h₂.fil.sect = h₂.vol.fs.fileSect l' h₂.sectNo := by
        rw [hno', hs.fs, hfil']
      refine Returns.ite (fun h0 => absurd h0 (by decide)) fun _ => ?_
      refine Returns.bind (writeBuffer_returns hs.toFits hc' hsect' hbtw (by rwa [hptr'])) ?_
      rintro wcnt h₃ ⟨hpos, hle, hvol, hputs⟩
      refine ⟨?_, .inl ⟨l', wcnt, hpos, hle, rfl, ?_⟩⟩
      · rw [hvol]
        exact hk.trans hk'
      · exact (hg.trans hs).puts hf hputs (by rw [hfil', hfil])
    · exact ⟨hk.trans hk', .inr (.inr (.inr ⟨rfl, hd⟩))⟩
  · exact ⟨hk, .inr (.inl ⟨rfl, hfull⟩)⟩
  · exact ⟨hk, .inr (.inr (.inl ⟨rfl, hbroken⟩))⟩
  · exact ⟨hk, .inr (.inr (.inr ⟨rfl, hd⟩))⟩

theorem Handle.Puts.modified {data : ℕ → UInt8} (hp : h.Puts d P h' l l' k data) :
    h.Puts d P { h' with fil := { h'.fil with faModified := true } } l l' k data := by
  refine ⟨⟨hp.owned, hp.start, hp.size, hp.pos, hp.dirty, hp.clean⟩, hp.keeps, hp.relinks,
    ⟨hp.at_.clust, hp.at_.sect⟩, hp.ptr, hp.grown, hp.byte, ?_⟩
  rw [hp.fil]

/-- An entry that no chain has was there before the chain was changed. -/
theorem Volume.Relinks.broken {v v' : Volume σ} (hr : v.Relinks d v' l l')
    (hc : v'.Chained d l') (hb : v'.Broken d) : v.Broken d := by
  obtain ⟨c, hcl, h1⟩ := hb
  have hmin := hc.geometry.minEntries
  have hlt : ¬ v'.fs.nFatent ≤ 1 := by
    rw [UInt32.le_iff_toNat_le, UInt32.toNat_one]
    omega
  have hlink : v'.link d c = .next 1 := by
    rw [Volume.link, h1, linkOf, if_neg (by decide), if_neg hlt]
  have hout : c ∉ l' := by
    intro hmem
    obtain ⟨l₁, l₂, rfl⟩ := List.append_of_mem hmem
    cases l₂ with
    | nil =>
      have hlast := hc.entry_last
      rw [h1] at hlast
      exact hlt hlast
    | cons b l₂ =>
      have hb := hc.mem b (by simp)
      rw [← hc.entry_next, h1] at hb
      exact absurd hb.1 (by decide)
  have hin : c ∉ l := fun hin => by
    have hfree := hr.becomes.frees c hin hout
    simp [hlink] at hfree
  have hsame : v.link d c = .next 1 := (hr.becomes.keeps c hin hout).symm.trans hlink
  refine ⟨c, ?_, (link_eq_next hsame).1⟩
  rwa [← hr.geometry]

/-- One round of the loop of `f_write` : the bytes written so far become more, or the loop
ends. -/
theorem writeBody_returns (hf : h.Fits d P l) (hat : h.At l) {bw : UInt32}
    (hlt : h.fil.fptr.toNat + btw.toNat < 2 ^ 32) :
    Returns (writeBody d buff (bw, btw)) h fun r h' =>
      (∃ l' wcnt, 0 < wcnt.toNat ∧ wcnt.toNat ≤ btw.toNat ∧ r = .inl (bw + wcnt, btw - wcnt) ∧
          h.Puts d P h' l l' wcnt.toNat fun i => buff (bw.toNat + i)) ∨
        (r = .inr (.frOk, bw) ∧ (h.Puts d P h' l l 0 fun i => buff (bw.toNat + i)) ∧
          h'.fil.faModified = true ∧ (btw ≠ 0 → h'.vol.NoRoom d)) ∨
        (∃ res, r = .inr (res, bw) ∧ h.vol.Keeps d P h'.vol ∧ h'.fil.err = res ∧
          ((res = .frIntErr ∧ h.vol.Broken d) ∨ (res = .frDiskErr ∧ ¬ d.Reliable))) := by
  rw [writeBody]
  refine Returns.ite (fun h0 => ?_) fun h0 => ?_
  · exact .inr (.inl ⟨rfl, (Handle.Puts.refl hf hat _).modified, rfl, fun hne => absurd h0 hne⟩)
  · have hpos : 0 < btw.toNat := Nat.pos_of_ne_zero fun h => h0 (UInt32.toNat_inj.1 h)
    refine Returns.bind (writeNext_returns hf hat hpos hlt) ?_
    rintro r h₁ ⟨hk, ⟨l', wcnt, hpos, hle, rfl, hputs⟩ | ⟨rfl, hs, hat', hfil, hroom⟩ |
      ⟨rfl, hbroken⟩ | ⟨rfl, hd⟩⟩
    · exact .inl ⟨l', wcnt, hpos, hle, rfl, hputs⟩
    · have hputs := hs.puts hf (.refl hs.toFits hat' fun i => buff (bw.toNat + i)) (by rw [hfil])
      exact .inr (.inl ⟨rfl, hputs.modified, rfl, fun _ => hroom⟩)
    · exact .inr (.inr ⟨_, rfl, hk, rfl, .inl ⟨rfl, hbroken⟩⟩)
    · exact .inr (.inr ⟨_, rfl, hk, rfl, .inr ⟨rfl, hd⟩⟩)

end Steps

/-! ## The function -/

section Whole

variable {d : Storage σ} {P : Set UInt32} {h : Handle σ} {l : List UInt32}

/-- The number of bytes that `f_write` takes, so that the file stays below 4 GiB. -/
theorem toNat_limit (fptr btw : UInt32) :
    (if fptr + btw < fptr then 0xFFFFFFFF - fptr else btw).toNat =
      min btw.toNat (2 ^ 32 - 1 - fptr.toNat) := by
  have hfptr := fptr.toNat_lt
  have hbtw := btw.toNat_lt
  have hsub : ((0xFFFFFFFF : UInt32) - fptr).toNat = 2 ^ 32 - 1 - fptr.toNat := by
    rw [UInt32.toNat_sub]
    simp only [UInt32.reduceToNat]
    omega
  simp only [UInt32.lt_iff_toNat_lt, UInt32.toNat_add, apply_ite UInt32.toNat, hsub]
  split_ifs <;> omega

/-- What `f_write` does : the caller's bytes are the bytes of the file from the pointer on, as
many as are wanted, or fewer if there is no free cluster; all others are as before. It gives up
only over an entry of the FAT that no chain has, or if the drive fails. The clusters `P` are left
alone. -/
theorem fWrite_returns (hf : h.Fits d P l) (hat : h.At l) (buff : ℕ → UInt8) (btw : UInt32) :
    Returns (fWrite d buff btw) h fun r h' =>
      (¬ (h.Ready d ∧ h.fil.faWrite = true) ∧ r = (h.refusal d, 0) ∧ h' = h) ∨
        ((h.Ready d ∧ h.fil.faWrite = true) ∧ ∃ n,
          n = min btw.toNat (2 ^ 32 - 1 - h.fil.fptr.toNat) ∧
          ((r.1 = .frOk ∧ r.2.toNat ≤ n ∧ h'.fil.faModified = true ∧
              (r.2.toNat < n → h'.vol.NoRoom d) ∧ ∃ l', h.Puts d P h' l l' r.2.toNat buff) ∨
            (h.vol.Keeps d P h'.vol ∧ h'.fil.err = r.1 ∧
              ((r.1 = .frIntErr ∧ h.vol.Broken d) ∨ (r.1 = .frDiskErr ∧ ¬ d.Reliable))))) := by
  unfold fWrite
  refine Returns.bind (checkFile_returns hf.owned.geometry.mounted) ?_
  rintro res h₁ ⟨rfl, hres, hcode⟩
  refine Returns.ite (fun hbad => .inl ⟨fun h => hbad (hres.2 h.1), by rw [hcode hbad], rfl⟩)
    fun hok => ?_
  have hready := hres.1 (not_not.1 hok)
  rw [returns_bind, returns_getFil]
  refine Returns.ite (fun hmode => ?_) fun hmode =>
    .inl ⟨fun h => hmode h.2, by rw [hready.refusal], rfl⟩
  have hn := toNat_limit h₁.fil.fptr btw
  set btw' := if h₁.fil.fptr + btw < h₁.fil.fptr then 0xFFFFFFFF - h₁.fil.fptr else btw
    with hbtw'
  have hfptr := h₁.fil.fptr.toNat_lt
  refine (Returns.iterate
    (J := fun b h' => b.1.toNat + b.2.toNat = btw'.toNat ∧
      ∃ l', h₁.Puts d P h' l l' b.1.toNat buff)
    (R := fun r h' => (r.1 = .frOk ∧ r.2.toNat ≤ btw'.toNat ∧ h'.fil.faModified = true ∧
        (r.2.toNat < btw'.toNat → h'.vol.NoRoom d) ∧ ∃ l', h₁.Puts d P h' l l' r.2.toNat buff) ∨
      (h₁.vol.Keeps d P h'.vol ∧ h'.fil.err = r.1 ∧
        ((r.1 = .frIntErr ∧ h₁.vol.Broken d) ∨ (r.1 = .frDiskErr ∧ ¬ d.Reliable))))
    (fun b _ => b.2.toNat) ?_ _ _ _ ⟨?_, l, .refl hf hat buff⟩ ?_).imp ?_
  · rintro ⟨bw, cnt⟩ h₂ ⟨hsum, l₂, hputs⟩
    simp only at hsum hputs ⊢
    have hptr := hputs.ptr
    have hlt : h₂.fil.fptr.toNat + cnt.toNat < 2 ^ 32 := by omega
    refine (writeBody_returns hputs.toFits hputs.at_ hlt).imp ?_
    rintro r h₃ (⟨l₃, wcnt, hpos, hle, rfl, hputs'⟩ | ⟨rfl, hputs', hmod, hroom⟩ |
      ⟨res, rfl, hkeeps, herr, hwhy⟩)
    · have hcnt : (cnt - wcnt).toNat = cnt.toNat - wcnt.toNat := by
        rw [UInt32.toNat_sub_of_le _ _ (UInt32.le_iff_toNat_le.2 hle)]
      have hbw : (bw + wcnt).toNat = bw.toNat + wcnt.toNat := by
        rw [UInt32.toNat_add]
        exact Nat.mod_eq_of_lt (by omega)
      refine ⟨⟨?_, l₃, ?_⟩, ?_⟩
      · simp only [hcnt, hbw]
        omega
      · simp only [hbw]
        exact hputs.trans hputs' fun _ => rfl
      · simp only [hcnt]
        omega
    · refine .inl ⟨rfl, by simp only; omega, hmod, fun hshort => hroom ?_, l₂, ?_⟩
      · rintro rfl
        simp only [UInt32.toNat_zero] at hsum hshort
        omega
      · exact hputs.trans hputs' fun _ => rfl
    · refine .inr ⟨hputs.keeps.trans hkeeps, herr, hwhy.imp_left fun hw => ⟨hw.1, ?_⟩⟩
      exact hputs.relinks.broken hputs.owned.toChained hw.2
  · simp
  · simp
  · rintro r h₂ hr
    rw [hn] at hr
    exact .inr ⟨⟨hready, hmode⟩, _, rfl, hr⟩

end Whole

end Gd32Firmware
