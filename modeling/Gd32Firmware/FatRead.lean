import Gd32Firmware.FatBuffer

/-!
# Reading a file

`fRead_returns` : `f_read` delivers the bytes of the file from the pointer on, as many as were
wanted or are there, whether they come from the buffer, from the drive, or from a dirty buffer
within a direct transfer. It changes no byte of a file.
-/

namespace Gd32Firmware

open Program FatGeometry

variable {σ : Type}

/-! ## Numbers -/

section Numbers

variable {fs : FatFs} {fptr cs cc : UInt32} {a : UInt32} {k : ℕ}

theorem toNat_sub_ofNat {j : ℕ} (hj : j ≤ cc.toNat) :
    (cc - UInt32.ofNat j).toNat = cc.toNat - j := by
  have hlt := cc.toNat_lt
  rw [UInt32.toNat_sub, UInt32.toNat_ofNat_of_lt' (by rw [UInt32.size]; omega)]
  omega

theorem toNat_csize (fs : FatFs) : fs.csize.toUInt32.toNat = fs.csize.toNat :=
  UInt16.toNat_toUInt32 _

theorem mod_512_eq_zero {x : UInt32} : x % 512 = 0 ↔ x.toNat % 512 = 0 := by
  rw [← UInt32.toNat_inj, UInt32.toNat_mod]
  rfl

theorem toNat_csect (hg : fs.WellFormed) :
    (csect fs fptr).toNat = fptr.toNat / 512 % fs.csize.toNat := by
  obtain ⟨k, hk, hcsize⟩ := hg.csize
  have hone : (fs.csize.toUInt32 - 1).toNat = 2 ^ k - 1 := by
    have hpos := hg.csize_pos
    have hle := hg.csize_le
    rw [UInt32.toNat_sub, toNat_csize, UInt32.toNat_one]
    omega
  rw [csect, UInt32.toNat_and, hone, Nat.and_two_pow_sub_one_eq_mod, UInt32.toNat_div, hcsize]
  rfl

theorem csect_eq_zero (hg : fs.WellFormed) :
    csect fs fptr = 0 ↔ fptr.toNat / 512 % fs.csize.toNat = 0 := by
  rw [← UInt32.toNat_inj, toNat_csect hg]
  rfl

/-- The number of sectors of a transfer. -/
theorem toNat_clip (hg : fs.WellFormed) (hcs : cs.toNat < fs.csize.toNat)
    (hcc : cc.toNat < 2 ^ 24) :
    (clipSectors fs cs cc).toNat = min cc.toNat (fs.csize.toNat - cs.toNat) := by
  have hle := hg.csize_le
  have hadd : (cs + cc).toNat = cs.toNat + cc.toNat := by
    rw [UInt32.toNat_add]
    omega
  unfold clipSectors
  simp only [UInt32.lt_iff_toNat_lt, hadd, toNat_csize]
  split_ifs with h
  · rw [UInt32.toNat_sub, toNat_csize]
    omega
  · omega

theorem toNat_add_sub (s₀ : UInt32) {i : ℕ} (hi : i < 2 ^ 32) :
    (s₀ + UInt32.ofNat i - s₀).toNat = i := by
  have hsub : s₀ + UInt32.ofNat i - s₀ = UInt32.ofNat i := by grind
  rw [hsub, UInt32.toNat_ofNat_of_lt' hi]

/-- The sectors of a transfer, as the functions test for one. -/
theorem sub_lt_iff {s s₀ : UInt32} (hcc : cc.toNat = k) :
    s - s₀ < cc ↔ ∃ i < k, s = s₀ + UInt32.ofNat i := by
  have hlt := cc.toNat_lt
  rw [UInt32.lt_iff_toNat_lt, hcc]
  constructor
  · intro h
    refine ⟨_, h, ?_⟩
    rw [UInt32.ofNat_toNat]
    grind
  · rintro ⟨i, hi, rfl⟩
    rwa [toNat_add_sub s₀ (by omega)]

theorem cluster_ne_diskError {g : FatGeometry} (hg : g.WellFormed) (ha : g.IsCluster a) :
    a ≠ diskError := by
  rintro rfl
  have hlt := hg.nFatent_lt
  have h := (isCluster_toNat.1 ha).2
  rw [show (diskError).toNat = 0xFFFFFFFF from rfl] at h
  omega

end Numbers

/-- So many bytes from a position on. -/
def bytesFrom (b : ℕ → UInt8) (p n : ℕ) : List UInt8 :=
  (List.range n).map fun i => b (p + i)

@[simp] theorem length_bytesFrom (b : ℕ → UInt8) (p n : ℕ) : (bytesFrom b p n).length = n := by
  simp [bytesFrom]

theorem bytesFrom_add (b : ℕ → UInt8) (p n m : ℕ) :
    bytesFrom b p (n + m) = bytesFrom b p n ++ bytesFrom b (p + n) m := by
  simp [bytesFrom, List.range_add, Function.comp_def, add_assoc]

theorem bytesFrom_congr {b b' : ℕ → UInt8} {p n : ℕ} (h : ∀ i < n, b (p + i) = b' (p + i)) :
    bytesFrom b p n = bytesFrom b' p n :=
  List.map_congr_left fun i hi => h i (List.mem_range.1 hi)

/-! ## The steps of the loop -/

section Steps

variable {d : Storage σ} {P : Set UInt32} {h h' : Handle σ} {l l' : List UInt32} {n : ℕ}

/-- The cluster of the sector `n`. -/
def Handle.ClustAt (h : Handle σ) (l : List UInt32) (n : ℕ) : Prop :=
  l[n / h.vol.fs.csize.toNat]? = some h.fil.clust

/-- The number of the sector at the pointer. -/
abbrev Handle.sectNo (h : Handle σ) : ℕ := h.fil.fptr.toNat / 512

/-- The cluster before a cluster boundary. -/
theorem Handle.At.before (hat : h.At l) (hpos : 0 < h.fil.fptr.toNat)
    (hsect : h.fil.fptr.toNat % 512 = 0) (hclust : h.sectNo % h.vol.fs.csize.toNat = 0)
    (hcsize : 0 < h.vol.fs.csize.toNat) :
    ∃ k, h.sectNo / h.vol.fs.csize.toNat = k + 1 ∧ l[k]? = some h.fil.clust := by
  have hc := hat.clust hpos
  obtain ⟨q, hq⟩ := Nat.dvd_of_mod_eq_zero hsect
  rw [Handle.sectNo, hq, Nat.mul_div_cancel_left _ (by decide)] at hclust ⊢
  obtain ⟨j, hj⟩ := Nat.dvd_of_mod_eq_zero hclust
  have hj0 : 0 < j := by
    rcases Nat.eq_zero_or_pos j with rfl | hj0
    · rw [hj] at hq
      omega
    · exact hj0
  have hdiv : (512 * q - 1) / 512 / h.vol.fs.csize.toNat = j - 1 := by
    have hsub : (512 * q - 1) / 512 = q - 1 := by omega
    obtain ⟨i, rfl⟩ : ∃ i, j = i + 1 := ⟨j - 1, by omega⟩
    rw [hsub, hj, Nat.add_sub_cancel, Nat.mul_succ]
    have hlast : h.vol.fs.csize.toNat * i + h.vol.fs.csize.toNat - 1 =
        h.vol.fs.csize.toNat * i + (h.vol.fs.csize.toNat - 1) := by omega
    rw [hlast, Nat.mul_add_div hcsize, Nat.div_eq_of_lt (by omega), add_zero]
  rw [hq, hdiv] at hc
  exact ⟨j - 1, by rw [hj, Nat.mul_div_cancel_left _ hcsize]; omega, hc⟩

/-- A change of the cluster alone. -/
theorem Handle.Grows.set_clust {l' : List UInt32} (hg : h.Grows d P h' l l') (clst : UInt32) :
    h.Grows d P { h' with fil := { h'.fil with clust := clst } } l l' :=
  ⟨⟨hg.owned, hg.start, hg.size, hg.pos, hg.dirty, hg.clean⟩, hg.keeps, hg.relinks, hg.tail,
    hg.byte⟩

/-- The FAT has been read. -/
theorem Handle.Fits.reads {v : Volume σ} (hf : h.Fits d P l) (hr : h.vol.Reads d v) :
    h.Still d P { h with vol := v } l := by
  have hfs := hr.geometry
  have hview := hr.view
  have ht := hf.owned.toChained.reads hr
  refine ⟨⟨hf.owned.reads hr, hf.start, ?_, hf.pos, ?_, ?_⟩, hf.owned.keeps ht.spares,
    ht.toRelinks, ⟨[], (List.append_nil l).symm⟩, fun p _ => ?_⟩
  · rw [hfs]
    exact hf.size
  · rw [hfs]
    exact hf.dirty
  · rw [hfs, hview]
    exact hf.clean
  · simp only [Handle.byte, hfs, hview]

/-- On a cluster boundary within the file `f_read` finds the next cluster. -/
theorem readClust_returns (hf : h.Fits d P l) (hat : h.At l)
    (hlt : h.fil.fptr.toNat < h.fil.objsize.toNat) (hsect : h.fil.fptr.toNat % 512 = 0)
    (hclust : h.sectNo % h.vol.fs.csize.toNat = 0) :
    Returns (readClust d h.fil.fptr) h fun r h' =>
      h.vol.Keeps d P h'.vol ∧
        ((r = .frOk ∧ h.Still d P h' l ∧ h'.ClustAt l h.sectNo ∧
            h'.fil = { h.fil with clust := h'.fil.clust }) ∨
          (r = .frDiskErr ∧ ¬ d.Reliable)) := by
  have hg := hf.owned.geometry
  obtain ⟨hidx, -⟩ := fileSect_cluster (hf.div_lt hlt)
  unfold readClust
  rw [returns_bind, returns_getFil]
  -- what is left to do with the number of the cluster
  have hgo : ∀ (clst : UInt32) (v : Volume σ), h.vol.Reads d v →
      l[h.sectNo / h.vol.fs.csize.toNat]? = some clst →
      Returns (if clst < 2 then pure FResult.frIntErr
        else if clst = diskError then pure FResult.frDiskErr
        else do
          modifyFil fun f => { f with clust := clst }
          pure FResult.frOk) { h with vol := v } fun r h' =>
      h.vol.Keeps d P h'.vol ∧
        ((r = .frOk ∧ h.Still d P h' l ∧ h'.ClustAt l h.sectNo ∧
            h'.fil = { h.fil with clust := h'.fil.clust }) ∨
          (r = .frDiskErr ∧ ¬ d.Reliable)) := by
    intro clst v hr hcl
    have hcluster := hf.owned.mem clst (List.mem_of_getElem? hcl)
    have hstill := hf.reads hr
    rw [if_neg (UInt32.not_lt.2 hcluster.1), if_neg (cluster_ne_diskError hg hcluster)]
    refine ⟨hstill.keeps, .inl ⟨rfl, hstill.set_clust clst, ?_, rfl⟩⟩
    rw [Handle.ClustAt, hr.geometry]
    exact hcl
  by_cases h0 : h.fil.fptr = 0
  · rw [if_pos h0]
    refine hgo _ h.vol (.refl hf.owned.coherent) ?_
    have hzero : h.sectNo = 0 := by rw [Handle.sectNo, h0]; rfl
    rw [hzero, Nat.zero_div, hf.start]
    rw [show h.fil.fptr.toNat / 512 = 0 from hzero, Nat.zero_div] at hidx
    cases l with
    | nil => exact absurd hidx (by simp)
    | cons a l => rfl
  · rw [if_neg h0]
    have hpos : 0 < h.fil.fptr.toNat :=
      Nat.pos_of_ne_zero fun h => h0 (UInt32.toNat_inj.1 h)
    obtain ⟨k, hk, hcur⟩ := hat.before hpos hsect hclust hg.csize_pos
    rw [← Handle.sectNo, hk] at hidx
    rw [returns_bind, returns_onVol]
    refine (getFat_next hf.owned.toChained hcur hidx).imp ?_
    rintro clst v ⟨hr, hnext | ⟨rfl, hd⟩⟩
    · exact hgo _ v hr (by rwa [hk])
    · exact ⟨(hf.reads hr).keeps, .inr ⟨rfl, hd⟩⟩

/-- The sector at the pointer, as the functions compute it. -/
theorem Handle.ClustAt.sect_eq (hc : h.ClustAt l n) {cs : UInt32}
    (hcs : cs.toNat = n % h.vol.fs.csize.toNat) :
    clst2sect h.vol.fs.toFatGeometry h.fil.clust + cs = h.vol.fs.fileSect l n := by
  rw [fileSect, ← hcs, UInt32.ofNat_toNat, List.getD_eq_getElem?_getD, hc, Option.getD_some]

theorem Handle.ClustAt.sect_ne_zero (hc : h.ClustAt l n) (hf : h.Fits d P l) :
    clst2sect h.vol.fs.toFatGeometry h.fil.clust ≠ 0 :=
  clst2sect_ne_zero hf.owned.geometry (hf.owned.mem _ (List.mem_of_getElem? hc))

/-- After a transfer that has changed nothing that is seen. -/
theorem Handle.Fits.read {v : Volume σ} (hf : h.Fits d P l) (hw : h.vol.Wrote d P v l n 0) :
    h.Still d P { h with vol := v } l := by
  have hfs := hw.fs
  have hview : v.view d = h.vol.view d := hw.view_eq
  refine ⟨⟨hw.owned, hf.start, ?_, hf.pos, ?_, ?_⟩, hw.toKeeps, hw.relinks hf.owned,
    ⟨[], (List.append_nil l).symm⟩, fun p _ => ?_⟩
  · rw [hfs]
    exact hf.size
  · rw [hfs]
    exact hf.dirty
  · rw [hfs, hview]
    exact hf.clean
  · simp only [Handle.byte, hfs, hview]

/-- The same bytes are read. -/
theorem Handle.Grows.bytes (hs : h.Grows d P h' l l') (hf : h.Fits d P l) {p k : ℕ}
    (hle : p + k ≤ h.fil.objsize.toNat) :
    bytesFrom (h'.byte d l') p k = bytesFrom (h.byte d l) p k :=
  bytesFrom_congr fun i hi => hs.byte _ (hf.div_lt (by omega))

/-- Another sector in the buffer, which is not dirty. -/
theorem Handle.Fits.load {s : UInt32} {b : Sector} (hf : h.Fits d P l)
    (hclean : h.fil.faDirty = false)
    (hb : ∀ p < h.fil.objsize.toNat, h.vol.fs.fileSect l (p / 512) = s →
      b.at p = (h.vol.view d s).at p) :
    h.Still d P { h with fil := { h.fil with buf := b, sect := s } } l := by
  have hrefl := Handle.Grows.refl hf
  refine ⟨⟨hf.owned, hf.start, hf.size, hf.pos, fun hw => ?_, fun _ => hb⟩, hrefl.keeps,
    hrefl.relinks, hrefl.tail, fun p _ => ?_⟩
  · exact absurd hw (by simp [hclean])
  · simp [Handle.byte, hclean]

/-- The bytes of whole sectors. -/
theorem sectorBytes_eq {data : ℕ → Sector} {b : ℕ → UInt8} {m : ℕ}
    (hdata : ∀ i < m, ∀ p, p / 512 = n + i → (data i).at p = b p) :
    sectorBytes data m = bytesFrom b (512 * n) (512 * m) := by
  refine List.map_congr_left fun i hi => ?_
  have hi := List.mem_range.1 hi
  rw [← hdata (i / 512) (by omega) (512 * n + i) (by omega), Sector.at, Sector.at]
  congr 1
  ext
  simp

/-- On a sector boundary within the file `f_read` delivers whole sectors, or has the sector in
the buffer. -/
theorem readSect_returns (hf : h.Fits d P l) (hc : h.ClustAt l h.sectNo) {btr cs : UInt32}
    (hsect : h.fil.fptr.toNat % 512 = 0) (hbtr : 0 < btr.toNat)
    (hlt : h.fil.fptr.toNat + btr.toNat ≤ h.fil.objsize.toNat)
    (hcs : cs.toNat = h.sectNo % h.vol.fs.csize.toNat) :
    Returns (readSect d btr cs) h fun r h' =>
      h.vol.Keeps d P h'.vol ∧
        ((∃ m, 0 < m ∧ 512 * m ≤ btr.toNat ∧
            h.sectNo % h.vol.fs.csize.toNat + m ≤ h.vol.fs.csize.toNat ∧
            r = .ok (some (bytesFrom (h.byte d l) h.fil.fptr.toNat (512 * m))) ∧
            h.Still d P h' l ∧ h'.fil = h.fil) ∨
          (btr.toNat < 512 ∧ r = .ok none ∧ h.Still d P h' l ∧
            h'.fil = { h.fil with
              faDirty := h'.fil.faDirty, sect := h.vol.fs.fileSect l h.sectNo,
              buf := h'.fil.buf }) ∨
          (r = .error .frDiskErr ∧ ¬ d.Reliable)) := by
  have hg := hf.owned.geometry
  have hn : h.sectNo < h.vol.fs.sectors l := hf.div_lt (by omega)
  have hcc : (btr / 512).toNat = btr.toNat / 512 := by
    rw [UInt32.toNat_div]
    rfl
  unfold readSect
  simp only [returns_bind, returns_onVol, returns_getFs, returns_getFil]
  rw [if_neg (hc.sect_ne_zero hf), hc.sect_eq hcs]
  refine Returns.ite (fun hwhole => ?_) fun hpart => ?_
  · have hcs' : cs.toNat < h.vol.fs.csize.toNat := by
      rw [hcs]
      exact Nat.mod_lt _ hg.csize_pos
    have hsmall : (btr / 512).toNat < 2 ^ 24 := by
      have hlt := btr.toNat_lt
      omega
    have hclip := toNat_clip hg hcs' hsmall
    set cc := clipSectors h.vol.fs cs (btr / 512)
    rw [UInt32.lt_iff_toNat_lt, UInt32.toNat_zero] at hwhole
    have hm : 0 < cc.toNat ∧ 512 * cc.toNat ≤ btr.toNat ∧
        h.sectNo % h.vol.fs.csize.toNat + cc.toNat ≤ h.vol.fs.csize.toNat := by
      omega
    have hsize := hf.size
    rw [returns_bind, returns_onVol]
    refine (diskReads_file hf.owned hm.2.2 (by unfold Handle.sectNo; omega)).imp ?_
    rintro ⟨status, data⟩ v ⟨hw, hr⟩
    refine Returns.ite (fun hok => ?_) fun hok => ⟨hw.toKeeps, .inr (.inr ⟨rfl, ?_⟩)⟩
    swap
    · exact (hr.resolve_left fun h => hok h.1).2
    have hdata : ∀ i < cc.toNat, data i = h.vol.view d (h.vol.fs.fileSect l (h.sectNo + i)) :=
      (hr.resolve_right fun h => h.1 hok).2
    have hdone : ∀ data' : ℕ → Sector,
        (∀ i < cc.toNat, ∀ p, p / 512 = h.sectNo + i → (data' i).at p = h.byte d l p) →
        sectorBytes data' cc.toNat = bytesFrom (h.byte d l) h.fil.fptr.toNat (512 * cc.toNat) := by
      intro data' hdata'
      have hptr : h.fil.fptr.toNat = 512 * h.sectNo := by
        unfold Handle.sectNo
        omega
      rw [hptr]
      exact sectorBytes_eq hdata'
    have hrange : ∀ i < cc.toNat, h.sectNo + i < h.vol.fs.sectors l := by
      intro i hi
      unfold Handle.sectNo
      omega
    -- the sector in the buffer is one of the transfer
    have hin : h.fil.sect - h.vol.fs.fileSect l h.sectNo < cc ↔
        ∃ i < cc.toNat, h.fil.sect = h.vol.fs.fileSect l h.sectNo + UInt32.ofNat i :=
      sub_lt_iff rfl
    refine Returns.ite (fun hdirty => ?_) fun hclean => ?_
    · obtain ⟨j, hj, hjsect⟩ := hin.1 hdirty.2
      have hjnat : (h.fil.sect - h.vol.fs.fileSect l h.sectNo).toNat = j := by
        rw [hjsect, toNat_add_sub _ (hj.trans cc.toNat_lt)]
      refine ⟨hw.toKeeps, .inl ⟨cc.toNat, hm.1, hm.2.1, hm.2.2, ?_, hf.read hw, rfl⟩⟩
      rw [hjnat, hdone]
      intro i hi p hp
      rw [fileSect_transfer hm.2.2 hj] at hjsect
      unfold Handle.byte
      rw [hp]
      by_cases hij : i = j
      · subst hij
        simp [hdirty.1, hjsect]
      · have hne : h.vol.fs.fileSect l (h.sectNo + i) ≠ h.fil.sect := by
          rw [hjsect]
          intro heq
          have := hf.inj (hrange i hi) (hrange j hj) heq
          omega
        simp [hne, hij, hdata i hi]
    · refine ⟨hw.toKeeps, .inl ⟨cc.toNat, hm.1, hm.2.1, hm.2.2, ?_, hf.read hw, rfl⟩⟩
      rw [hdone]
      intro i hi p hp
      rw [show ((status, data).2 i).at p = (data i).at p from rfl, hdata i hi]
      unfold Handle.byte
      rw [hp, if_neg]
      rintro ⟨hd, hs⟩
      exact hclean ⟨hd, hin.2 ⟨i, hi, by rw [← hs, fileSect_transfer hm.2.2 hi]⟩⟩
  have hshort : btr.toNat < 512 := by
    rw [UInt32.lt_iff_toNat_lt, UInt32.toNat_zero] at hpart
    omega
  refine Returns.ite (fun hload => ?_) fun hstay => ?_
  swap
  · have hsame : h.fil.sect = h.vol.fs.fileSect l h.sectNo := by simpa using hstay
    refine ⟨.refl hf.owned.coherent, .inr (.inl ⟨hshort, rfl, .refl hf, ?_⟩)⟩
    rw [← hsame]
  refine Returns.bind (writeBack_returns hf) ?_
  rintro r h₁ ⟨hstill, hfs, ⟨rfl, hfil⟩ | ⟨rfl, hd, -⟩⟩
  swap
  · exact ⟨hstill.keeps, .inr (.inr ⟨rfl, hd⟩)⟩
  have hk := hstill.keeps
  have hf₁ := hstill.toFits
  have hg₁ := hf₁.owned.geometry
  rw [← hfs, if_pos rfl, returns_bind, returns_onVol]
  refine (diskReads_file hf₁.owned (m := 1) (Nat.mod_lt _ hg₁.csize_pos)
    (by rw [hfs]; exact hn)).imp ?_
  rintro ⟨status, data⟩ v ⟨hw, hr⟩
  rw [returns_bind, returns_modifyFil]
  refine Returns.ite (fun hok => ?_) fun hok =>
    ⟨hk.trans hw.toKeeps, .inr (.inr ⟨rfl, ?_⟩)⟩
  swap
  · exact (hr.resolve_left fun h => hok h.1).2
  obtain ⟨-, hdata⟩ := hr.resolve_right fun h => h.1 hok
  have hdata0 : data 0 = h₁.vol.view d (h₁.vol.fs.fileSect l h.sectNo) := hdata 0 (by decide)
  have hread := hf₁.read hw
  have hview : v.view d = h₁.vol.view d := hw.view_eq
  have hload := hread.toFits.load (s := h₁.vol.fs.fileSect l h.sectNo) (b := data 0)
    (by rw [hfil]) fun p _ _ => by rw [hdata0, hview]
  rw [returns_bind, returns_modifyFil]
  refine ⟨hk.trans hw.toKeeps, .inr (.inl ⟨hshort, rfl, hstill.trans (hread.trans hload), ?_⟩)⟩
  rw [hfil, hfs]

/-- The cluster at a pointer that is not on a cluster boundary. -/
theorem Handle.At.within (hat : h.At l) (hcsize : 0 < h.vol.fs.csize.toNat)
    (hin : ¬ (h.fil.fptr.toNat % 512 = 0 ∧ h.sectNo % h.vol.fs.csize.toNat = 0)) :
    h.ClustAt l h.sectNo := by
  have hpos : 0 < h.fil.fptr.toNat := by
    rcases Nat.eq_zero_or_pos h.fil.fptr.toNat with h0 | hpos
    · simp [Handle.sectNo, h0] at hin
    · exact hpos
  have hc := hat.clust hpos
  have hdiv : (h.fil.fptr.toNat - 1) / 512 / h.vol.fs.csize.toNat =
      h.sectNo / h.vol.fs.csize.toNat := by
    by_cases hsect : h.fil.fptr.toNat % 512 = 0
    · have hmod : h.sectNo % h.vol.fs.csize.toNat ≠ 0 := fun h0 => hin ⟨hsect, h0⟩
      have hprev : (h.fil.fptr.toNat - 1) / 512 = h.sectNo - 1 := by
        unfold Handle.sectNo
        omega
      have hsplit := Nat.div_add_mod h.sectNo h.vol.fs.csize.toNat
      have hlt := Nat.mod_lt h.sectNo hcsize
      have hsub : h.sectNo - 1 = h.vol.fs.csize.toNat * (h.sectNo / h.vol.fs.csize.toNat) +
          (h.sectNo % h.vol.fs.csize.toNat - 1) := by omega
      have hzero : (h.sectNo % h.vol.fs.csize.toNat - 1) / h.vol.fs.csize.toNat = 0 :=
        Nat.div_eq_of_lt (by omega)
      rw [hprev, hsub, Nat.mul_add_div hcsize, hzero, add_zero]
    · rw [show (h.fil.fptr.toNat - 1) / 512 = h.sectNo by unfold Handle.sectNo; omega]
  rwa [hdiv] at hc

/-- The pointer has moved on by `k` bytes, and the file is as before. -/
structure Handle.Moved (d : Storage σ) (P : Set UInt32) (h h' : Handle σ) (l : List UInt32)
    (k : ℕ) : Prop extends Handle.Grows d P h h' l l where
  at_ : h'.At l
  ptr : h'.fil.fptr.toNat = h.fil.fptr.toNat + k
  fil : h'.fil = { h.fil with
    faDirty := h'.fil.faDirty, fptr := h'.fil.fptr, clust := h'.fil.clust,
    sect := h'.fil.sect, buf := h'.fil.buf }

theorem Handle.Moved.trans {h'' : Handle σ} {k k' : ℕ} (hm : h.Moved d P h' l k)
    (hm' : h'.Moved d P h'' l k') : h.Moved d P h'' l (k + k') := by
  refine ⟨hm.toGrows.trans hm'.toGrows, hm'.at_, by rw [hm'.ptr, hm.ptr, add_assoc], ?_⟩
  rw [hm'.fil, hm.fil]

/-- The pointer is moved on. -/
theorem Handle.Grows.move (hs : h.Still d P h' l) (hc : h'.ClustAt l n) {k : ℕ} {wcnt : UInt32}
    (hfil : h'.fil = { h.fil with
      faDirty := h'.fil.faDirty, clust := h'.fil.clust, sect := h'.fil.sect, buf := h'.fil.buf })
    (hw : wcnt.toNat = k) (hle : h.fil.fptr.toNat + k ≤ h.fil.objsize.toNat)
    (hlast : (h.fil.fptr.toNat + k - 1) / 512 / h.vol.fs.csize.toNat = n / h.vol.fs.csize.toNat)
    (hsect : (h.fil.fptr.toNat + k) % 512 ≠ 0 →
      h'.fil.sect = h.vol.fs.fileSect l ((h.fil.fptr.toNat + k) / 512)) :
    h.Moved d P { h' with fil := { h'.fil with fptr := h'.fil.fptr + wcnt } } l k := by
  have hptr : (h'.fil.fptr + wcnt).toNat = h.fil.fptr.toNat + k := by
    have hlt := h.fil.objsize.toNat_lt
    have hfptr : h'.fil.fptr = h.fil.fptr := by rw [hfil]
    rw [UInt32.toNat_add, hfptr, hw]
    exact Nat.mod_eq_of_lt (by omega)
  have hsize : h'.fil.objsize = h.fil.objsize := by rw [hfil]
  refine ⟨⟨⟨hs.owned, hs.start, hs.size, ?_, hs.dirty, hs.clean⟩, hs.keeps, hs.relinks,
    hs.tail, hs.byte⟩, ⟨fun _ => ?_, fun hne => ?_⟩, hptr, ?_⟩
  · simp only [hptr, hsize]
    exact hle
  · simp only [hptr, hs.fs, hlast]
    rw [Handle.ClustAt, hs.fs] at hc
    exact hc
  · simp only [hptr, hs.fs] at hne ⊢
    exact hsect hne
  · rw [hfil]

/-- The first step of `f_read` leaves the cluster of the pointer. -/
theorem readStart_returns (hf : h.Fits d P l) (hat : h.At l)
    (hlt : h.fil.fptr.toNat < h.fil.objsize.toNat) :
    Returns (readStart d) h fun r h' =>
      h.vol.Keeps d P h'.vol ∧
        ((r = .frOk ∧ h.Still d P h' l ∧ h'.ClustAt l h.sectNo ∧
            h'.fil = { h.fil with clust := h'.fil.clust }) ∨
          (r = .frDiskErr ∧ ¬ d.Reliable)) := by
  have hg := hf.owned.geometry
  unfold readStart
  rw [returns_bind, returns_onVol, returns_getFs, returns_bind, returns_getFil]
  refine Returns.ite (fun hb => ?_) fun hb => ?_
  · rw [mod_512_eq_zero, csect_eq_zero hg] at hb
    exact readClust_returns hf hat hlt hb.1 hb.2
  · rw [mod_512_eq_zero, csect_eq_zero hg] at hb
    exact ⟨.refl hf.owned.coherent, .inl ⟨rfl, .refl hf, hat.within hg.csize_pos hb, rfl⟩⟩

/-- Whole sectors are delivered, or the sector of the pointer is in the buffer. -/
theorem readFill_returns (hf : h.Fits d P l) (hc : h.ClustAt l h.sectNo)
    (hin : h.fil.fptr.toNat % 512 ≠ 0 → h.fil.sect = h.vol.fs.fileSect l h.sectNo) {btr : UInt32}
    (hbtr : 0 < btr.toNat) (hle : h.fil.fptr.toNat + btr.toNat ≤ h.fil.objsize.toNat) :
    Returns (readFill d btr) h fun r h' =>
      h.vol.Keeps d P h'.vol ∧
        ((∃ m, 0 < m ∧ 512 * m ≤ btr.toNat ∧ h.fil.fptr.toNat % 512 = 0 ∧
            h.sectNo % h.vol.fs.csize.toNat + m ≤ h.vol.fs.csize.toNat ∧
            r = .ok (some (bytesFrom (h.byte d l) h.fil.fptr.toNat (512 * m))) ∧
            h.Still d P h' l ∧ h'.fil = h.fil) ∨
          (r = .ok none ∧ h.Still d P h' l ∧
            h'.fil = { h.fil with
              faDirty := h'.fil.faDirty, sect := h.vol.fs.fileSect l h.sectNo,
              buf := h'.fil.buf }) ∨
          (r = .error .frDiskErr ∧ ¬ d.Reliable)) := by
  unfold readFill
  rw [returns_bind, returns_onVol, returns_getFs, returns_bind, returns_getFil]
  refine Returns.ite (fun hb => ?_) fun hb => ?_
  · rw [mod_512_eq_zero] at hb
    refine (readSect_returns hf hc hb hbtr hle (toNat_csect hf.owned.geometry)).imp ?_
    rintro r h' ⟨hk, ⟨m, hm, hmle, hclip, hr⟩ | ⟨-, hr⟩ | hr⟩
    · exact ⟨hk, .inl ⟨m, hm, hmle, hb, hclip, hr⟩⟩
    · exact ⟨hk, .inr (.inl hr)⟩
    · exact ⟨hk, .inr (.inr hr)⟩
  · rw [mod_512_eq_zero] at hb
    refine ⟨.refl hf.owned.coherent, .inr (.inl ⟨rfl, .refl hf, ?_⟩)⟩
    rw [← hin hb]

theorem toNat_rest (fptr : UInt32) : (512 - fptr % 512).toNat = 512 - fptr.toNat % 512 := by
  have hmod : (fptr % 512).toNat = fptr.toNat % 512 := UInt32.toNat_mod ..
  rw [UInt32.toNat_sub, hmod]
  simp only [UInt32.reduceToNat]
  omega

/-- The number of bytes to the end of the sector, if as many are wanted. -/
theorem toNat_clip_bytes (fptr cnt : UInt32) :
    (if cnt < 512 - fptr % 512 then cnt else 512 - fptr % 512).toNat =
      min cnt.toNat (512 - fptr.toNat % 512) := by
  simp only [UInt32.lt_iff_toNat_lt, toNat_rest, apply_ite UInt32.toNat]
  split_ifs <;> omega

/-- The bytes of the sector in the buffer. -/
theorem readBuffer_returns (hf : h.Fits d P l) (hin : h.fil.sect = h.vol.fs.fileSect l h.sectNo)
    {btr : UInt32} (hle : h.fil.fptr.toNat + btr.toNat ≤ h.fil.objsize.toNat) :
    Returns (readBuffer btr) h fun data h' =>
      data = bytesFrom (h.byte d l) h.fil.fptr.toNat
        (min btr.toNat (512 - h.fil.fptr.toNat % 512)) ∧ h' = h := by
  unfold readBuffer
  rw [returns_bind, returns_getFil]
  refine ⟨?_, rfl⟩
  rw [toNat_clip_bytes]
  refine List.map_congr_left fun i hi => ?_
  have hi := List.mem_range.1 hi
  have hdiv : (h.fil.fptr.toNat + i) / 512 = h.sectNo := by
    unfold Handle.sectNo
    omega
  rw [hf.byte_buf (by omega) (by rw [hdiv, hin]), ← h.fil.buf.at_mod h.fil.fptr.toNat i,
    UInt32.toNat_mod]
  rfl

/-- What one round of the loop of `f_read` delivers : bytes of the file from the pointer on, up
to the end of the sector or whole sectors of the cluster. -/
theorem readNext_returns (hf : h.Fits d P l) (hat : h.At l) {btr : UInt32} (hbtr : 0 < btr.toNat)
    (hle : h.fil.fptr.toNat + btr.toNat ≤ h.fil.objsize.toNat) :
    Returns (readNext d btr) h fun r h' =>
      h.vol.Keeps d P h'.vol ∧
        ((∃ k, 0 < k ∧ k ≤ btr.toNat ∧ r = .ok (bytesFrom (h.byte d l) h.fil.fptr.toNat k) ∧
            h.Still d P h' l ∧ h'.ClustAt l h.sectNo ∧
            (h.fil.fptr.toNat + k - 1) / 512 / h.vol.fs.csize.toNat =
              h.sectNo / h.vol.fs.csize.toNat ∧
            ((h.fil.fptr.toNat + k) % 512 ≠ 0 →
              h'.fil.sect = h.vol.fs.fileSect l ((h.fil.fptr.toNat + k) / 512)) ∧
            h'.fil = { h.fil with
              faDirty := h'.fil.faDirty, clust := h'.fil.clust, sect := h'.fil.sect,
              buf := h'.fil.buf }) ∨
          (r = .error .frDiskErr ∧ ¬ d.Reliable)) := by
  unfold readNext
  refine Returns.bind (readStart_returns hf hat (by omega)) ?_
  rintro r h₁ ⟨hk₁, ⟨rfl, hs₁, hc₁, hfil₁⟩ | ⟨rfl, hd⟩⟩
  swap
  · exact ⟨hk₁, .inr ⟨rfl, hd⟩⟩
  have hptr : h₁.fil.fptr = h.fil.fptr := by rw [hfil₁]
  have hno : h₁.sectNo = h.sectNo := by
    unfold Handle.sectNo
    rw [hptr]
  have hsize : h₁.fil.objsize = h.fil.objsize := by rw [hfil₁]
  rw [if_pos rfl]
  refine Returns.bind (readFill_returns hs₁.toFits (by rwa [hno]) (fun hne => ?_) hbtr
    (by rwa [hptr, hsize])) ?_
  · rw [hptr] at hne
    rw [hno, hs₁.fs, ← hat.sect hne, hfil₁]
  rintro r h₂ ⟨hk₂, ⟨m, hm, hmle, hzero, hclip, rfl, hs₂, hfil₂⟩ | ⟨rfl, hs₂, hfil₂⟩ | ⟨rfl, hd⟩⟩
  · rw [hptr] at hzero
    rw [hno, hs₁.fs] at hclip
    obtain ⟨hlast, -⟩ := add_div_csize (n := h.sectNo) (i := m - 1) (c := h.vol.fs.csize.toNat)
      (by omega)
    have hend : (h.fil.fptr.toNat + 512 * m - 1) / 512 = h.sectNo + (m - 1) := by
      unfold Handle.sectNo
      omega
    refine ⟨hk₁.trans hk₂, .inl ⟨512 * m, by omega, hmle, ?_, hs₁.trans hs₂, ?_, ?_, fun hne => ?_,
      ?_⟩⟩
    · rw [hptr, hs₁.bytes hf (by omega)]
    · rw [Handle.ClustAt, hs₂.fs, hfil₂]
      exact hc₁
    · rw [hend, hlast]
    · omega
    · rw [hfil₂, hfil₁]
  · have hptr₂ : h₂.fil.fptr = h.fil.fptr := by rw [hfil₂, hptr]
    have hsize₂ : h₂.fil.objsize = h.fil.objsize := by rw [hfil₂, hsize]
    have hno₂ : h₂.sectNo = h.sectNo := by
      unfold Handle.sectNo
      rw [hptr₂]
    have hsect₂ : h₂.fil.sect = h.vol.fs.fileSect l h.sectNo := by rw [hfil₂, hno, hs₁.fs]
    refine Returns.bind (readBuffer_returns hs₂.toFits (by rw [hsect₂, hs₂.fs, hs₁.fs, hno₂])
      (by rwa [hptr₂, hsize₂])) ?_
    rintro data h₃ ⟨rfl, rfl⟩
    have hk : ∀ k, k = min btr.toNat (512 - h.fil.fptr.toNat % 512) →
        0 < k ∧ k ≤ btr.toNat ∧ (h.fil.fptr.toNat + k - 1) / 512 = h.sectNo ∧
        ((h.fil.fptr.toNat + k) % 512 ≠ 0 → (h.fil.fptr.toNat + k) / 512 = h.sectNo) := by
      intro k hk
      unfold Handle.sectNo
      omega
    obtain ⟨hk0, hkle, hlast, hnext⟩ := hk _ rfl
    refine ⟨hk₁.trans hk₂, .inl ⟨_, hk0, hkle, ?_, hs₁.trans hs₂, ?_, by rw [hlast], fun hne => ?_,
      ?_⟩⟩
    · rw [hptr₂, (hs₁.trans hs₂).bytes hf (by omega)]
    · rw [Handle.ClustAt, hs₂.fs, hfil₂]
      exact hc₁
    · rw [hnext hne, hsect₂]
    · rw [hfil₂, hfil₁]
  · exact ⟨hk₁.trans hk₂, .inr ⟨rfl, hd⟩⟩

/-- One round of the loop of `f_read` : bytes of the file are added to those read so far, and
the pointer moves on as far. -/
theorem readBody_returns (hf : h.Fits d P l) (hat : h.At l) (out : List UInt8) {btr : UInt32}
    (hle : h.fil.fptr.toNat + btr.toNat ≤ h.fil.objsize.toNat) (hbtr : btr ≠ 0) :
    Returns (readBody d (out, btr)) h fun r h' =>
      (∃ k, 0 < k ∧ k ≤ btr.toNat ∧
          r = .inl (out ++ bytesFrom (h.byte d l) h.fil.fptr.toNat k, btr - UInt32.ofNat k) ∧
          h.Moved d P h' l k) ∨
        (r = .inr (.frDiskErr, out) ∧ ¬ d.Reliable ∧ h.vol.Keeps d P h'.vol ∧
          h'.fil.err = .frDiskErr) := by
  have hpos : 0 < btr.toNat := Nat.pos_of_ne_zero fun h => hbtr (UInt32.toNat_inj.1 h)
  rw [readBody, if_neg hbtr]
  refine Returns.bind (readNext_returns hf hat hpos hle) ?_
  rintro r h₁ ⟨hk, ⟨k, hk0, hkle, rfl, hs, hc, hlast, hsect, hfil⟩ | ⟨rfl, hd⟩⟩
  · simp only [length_bytesFrom, returns_bind, returns_modifyFil, returns_pure]
    have hkn : (UInt32.ofNat k).toNat = k :=
      UInt32.toNat_ofNat_of_lt' (lt_of_le_of_lt hkle btr.toNat_lt)
    refine .inl ⟨k, hk0, hkle, rfl, ?_⟩
    exact hs.move hc hfil hkn (by omega) hlast hsect
  · exact .inr ⟨rfl, hd, hk, rfl⟩

end Steps

/-! ## The function -/

section Whole

variable {d : Storage σ} {P : Set UInt32} {h h' : Handle σ} {l : List UInt32}

/-- The object is open, no error has been recorded in it, and the drive is ready. -/
def Handle.Ready (d : Storage σ) (h : Handle σ) : Prop :=
  h.fil.opened = true ∧ h.fil.err = .frOk ∧
    d.diskStatus h.vol.disk &&& staNoinit = 0

/-- The code of a call that is refused : the object is not valid, an error has been recorded in
it, or the file has not been opened for this. -/
def Handle.refusal (d : Storage σ) (h : Handle σ) : FResult :=
  if h.fil.opened = true ∧ d.diskStatus h.vol.disk &&& staNoinit = 0 then
    if h.fil.err = .frOk then .frDenied else h.fil.err
  else .frInvalidObject

theorem Handle.Ready.refusal (hr : h.Ready d) : h.refusal d = .frDenied :=
  (if_pos ⟨hr.1, hr.2.2⟩).trans (if_pos hr.2.1)

theorem checkFile_returns (hmounted : h.vol.fs.fsType ≠ .blank) :
    Returns (checkFile d) h fun r h' =>
      h' = h ∧ (r = .frOk ↔ h.Ready d) ∧ (r ≠ .frOk → r = h.refusal d) := by
  unfold checkFile validate
  rw [returns_bind, returns_act]
  refine Returns.ite (fun hbad => ⟨rfl, ?_, fun _ => ?_⟩) fun hok => ?_
  · exact iff_of_false hbad fun hr => hbad (if_pos ⟨hr.1, hmounted, hr.2.2⟩)
  · have hno : ¬ (h.fil.opened = true ∧ d.diskStatus h.vol.disk &&& staNoinit = 0) :=
      fun hv => hbad (if_pos ⟨hv.1, hmounted, hv.2⟩)
    rw [Handle.refusal, if_neg hno, if_neg fun hall => hno ⟨hall.1, hall.2.2⟩]
  · rw [returns_bind, returns_getFil]
    have hvalid : h.fil.opened = true ∧ h.vol.fs.fsType ≠ .blank ∧
        d.diskStatus h.vol.disk &&& staNoinit = 0 := by
      by_contra hno
      exact hok (by simp [hno])
    refine ⟨rfl, ⟨fun herr => ⟨hvalid.1, herr, hvalid.2.2⟩, fun hr => hr.2.1⟩, fun hbad => ?_⟩
    exact ((if_pos ⟨hvalid.1, hvalid.2.2⟩).trans (if_neg hbad)).symm

theorem Handle.Moved.refl (hf : h.Fits d P l) (hat : h.At l) : h.Moved d P h l 0 :=
  ⟨.refl hf, hat, rfl, rfl⟩

/-- What `f_read` does : from the pointer on it delivers as many bytes of the file as are wanted
or as there are, and moves the pointer on as far. If the drive fails the bytes that it counts
are bytes of the file still. -/
theorem fRead_returns (hf : h.Fits d P l) (hat : h.At l) (btr : UInt32) :
    Returns (fRead d btr) h fun r h' =>
      (¬ (h.Ready d ∧ h.fil.faRead = true) ∧ r = (h.refusal d, []) ∧ h' = h) ∨
        ((h.Ready d ∧ h.fil.faRead = true) ∧ ∃ n,
          n = min btr.toNat (h.fil.objsize.toNat - h.fil.fptr.toNat) ∧
          ((r = (.frOk, bytesFrom (h.byte d l) h.fil.fptr.toNat n) ∧ h.Moved d P h' l n) ∨
            (r.1 = .frDiskErr ∧ ¬ d.Reliable ∧ h'.fil.err = .frDiskErr ∧
              h.vol.Keeps d P h'.vol ∧
              ∃ k ≤ n, r.2 = bytesFrom (h.byte d l) h.fil.fptr.toNat k))) := by
  unfold fRead
  refine Returns.bind (checkFile_returns hf.owned.geometry.mounted) ?_
  rintro res h₁ ⟨rfl, hres, hcode⟩
  refine Returns.ite (fun hbad => .inl ⟨fun h => hbad (hres.2 h.1), by rw [hcode hbad], rfl⟩)
    fun hok => ?_
  have hready := hres.1 (not_not.1 hok)
  rw [returns_bind, returns_getFil]
  refine Returns.ite (fun hmode => ?_) fun hmode =>
    .inl ⟨fun h => hmode h.2, by rw [hready.refusal], rfl⟩
  have hpos := hf.pos
  have hremain : (h₁.fil.objsize - h₁.fil.fptr).toNat =
      h₁.fil.objsize.toNat - h₁.fil.fptr.toNat := by
    have hlt := h₁.fil.objsize.toNat_lt
    rw [UInt32.toNat_sub]
    omega
  set btr' := if h₁.fil.objsize - h₁.fil.fptr < btr then h₁.fil.objsize - h₁.fil.fptr else btr
    with hbtr'
  have hn : btr'.toNat = min btr.toNat (h₁.fil.objsize.toNat - h₁.fil.fptr.toNat) := by
    simp only [hbtr', UInt32.lt_iff_toNat_lt, apply_ite UInt32.toNat, hremain]
    split_ifs <;> omega
  refine (Returns.iterate
    (J := fun b h' => ∃ k, k + b.2.toNat = btr'.toNat ∧
      b.1 = bytesFrom (h₁.byte d l) h₁.fil.fptr.toNat k ∧ h₁.Moved d P h' l k)
    (R := fun r h' => (r = (.frOk, bytesFrom (h₁.byte d l) h₁.fil.fptr.toNat btr'.toNat) ∧
        h₁.Moved d P h' l btr'.toNat) ∨
      (r.1 = .frDiskErr ∧ ¬ d.Reliable ∧ h'.fil.err = .frDiskErr ∧ h₁.vol.Keeps d P h'.vol ∧
        ∃ k ≤ btr'.toNat, r.2 = bytesFrom (h₁.byte d l) h₁.fil.fptr.toNat k))
    (fun b _ => b.2.toNat) ?_ _ _ _ ⟨0, by simp [hbtr'], rfl, .refl hf hat⟩
    (by simp)).imp ?_
  · rintro ⟨out, cnt⟩ h₂ ⟨k, hk, rfl, hmoved⟩
    simp only at hk ⊢
    by_cases h0 : cnt = 0
    · subst h0
      rw [readBody, if_pos rfl]
      rw [UInt32.toNat_zero, add_zero] at hk
      subst hk
      exact .inl ⟨rfl, hmoved⟩
    · have hsize : h₂.fil.objsize = h₁.fil.objsize := by rw [hmoved.fil]
      refine (readBody_returns hmoved.toFits hmoved.at_ _ (by rw [hmoved.ptr, hsize]; omega)
        h0).imp ?_
      rintro r h₃ (⟨j, hj0, hj, rfl, hmoved'⟩ | ⟨rfl, hd, hkeeps, herr⟩)
      · have hjn := toNat_sub_ofNat hj
        refine ⟨⟨k + j, by rw [hjn]; omega, ?_, hmoved.trans hmoved'⟩, by rw [hjn]; omega⟩
        rw [bytesFrom_add, hmoved.ptr, hmoved.bytes hf (by omega)]
      · exact .inr ⟨rfl, hd, herr, hmoved.keeps.trans hkeeps, k, by omega, rfl⟩
  · rintro r h₂ hr
    rw [hn] at hr
    exact .inr ⟨⟨hready, hmode⟩, _, rfl, hr⟩

end Whole

end Gd32Firmware
