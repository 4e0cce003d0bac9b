import Gd32Firmware.FatFiles

/-!
# Opening a file

The part of `f_open` of `libraries/fatfs/ff.c` from the directory entry on : `follow_path` has
found the name, and the window is at its entry. An existing file is opened, at its beginning or
at its end, or its contents are thrown away first.

`Volume.HasFile` is a file on a volume. `openFound_returns` says what the object is that is made
of it, `fSync_durable` that a file that `f_sync` has reported as stored is found again, with all
its bytes, when the volume is mounted anew from its medium, and `openFile_returns` what it means
for the files that are open already.
-/

namespace Gd32Firmware

open Program FatGeometry

variable {σ : Type} (d : Storage σ)

/-- The flags of `f_open`. -/
structure OpenMode where
  read : Bool
  write : Bool
  createNew : Bool
  createAlways : Bool
  openAlways : Bool
  seekEnd : Bool

/-- No object : `obj.fs` is set to null. -/
def refuse (res : FResult) : Program (Handle σ) FResult := do
  modifyFil fun f => { f with opened := false }
  pure res

/-- The entry of a file that is thrown away : creation and modification time, attributes, first
cluster and size. -/
def dirReset (t : FsType) (dir : ℕ) (win : Sector) : Sector :=
  let win := stDword win (dir + 14) fattime
  let win := stDword win (dir + 22) fattime
  let win := win.put (dir + 11) 0x20
  let win := stClust t win dir 0
  stDword win (dir + 28) 0

/-- The entry is reset and the clusters of the file are given back. -/
def overwriteEntry (dir : ℕ) : Program (Volume σ) FResult := do
  let fs ← getFs
  let cl := ldClust fs.fsType fs.win dir
  editWin (dirReset fs.fsType dir)
  if cl ≠ 0 then
    let res ← removeChain d cl 0
    if res = .frOk then
      let res ← moveWindow d fs.winsect
      modifyFs fun fs => { fs with lastClst := cl - 1 }
      pure res
    else pure res
  else pure .frOk

/-- The loop that follows the chain to its end, with what is left of the size. -/
def endBody : UInt32 × UInt32 →
    Program (Handle σ) ((UInt32 × UInt32) ⊕ (FResult × UInt32 × UInt32))
  | (ofs, clst) => do
    let fs ← onVol getFs
    let bcs := bytesOfCluster fs.toFatGeometry
    if bcs < ofs then
      let clst ← onVol (getFat d clst)
      if clst = diskError then pure (.inr (.frDiskErr, ofs, clst))
      else if clst ≤ 1 then pure (.inr (.frIntErr, ofs, clst))
      else pure (.inl (ofs - bcs, clst))
    else pure (.inr (.frOk, ofs, clst))

/-- The sector of the end is read into the buffer, if the end is in it. -/
def endLoad (ofs clst : UInt32) : Program (Handle σ) FResult := do
  let fs ← onVol getFs
  if ofs % 512 ≠ 0 then
    let sc := clst2sect fs.toFatGeometry clst
    if sc = 0 then refuse .frIntErr
    else
      let (status, data) ← onVol (diskReads d (sc + ofs / 512) 1)
      modifyFil fun f => { f with sect := sc + ofs / 512, buf := data 0 }
      if status = .resOk then pure .frOk else refuse .frDiskErr
  else pure .frOk

/-- The pointer is set to the end. -/
def openEnd : Program (Handle σ) FResult := do
  let f ← getFil
  modifyFil fun f => { f with fptr := f.objsize }
  let (res, ofs, clst) ← iterate (endBody d) (f.objsize.toNat + 1) (f.objsize, f.sclust)
  modifyFil fun f => { f with clust := clst }
  if res = .frOk then endLoad d ofs clst else refuse res

/-- The object of the file at the entry `dir` in the window. -/
def openObject (mode : OpenMode) (dir : ℕ) : Program (Handle σ) FResult := do
  let fs ← onVol getFs
  modifyFil fun f =>
    { f with
      opened := true
      sclust := ldClust fs.fsType fs.win dir
      objsize := ldDword fs.win (dir + 28)
      faRead := mode.read
      faWrite := mode.write
      faModified := mode.createAlways
      faDirty := false
      err := .frOk
      fptr := 0
      sect := 0
      dirSect := fs.winsect
      dirPtr := dir
      buf := fun _ => 0 }
  let f ← getFil
  if mode.seekEnd ∧ 0 < f.objsize then openEnd d else pure .frOk

/-- `f_open` from the entry `dir` in the window on. -/
def openFound (mode : OpenMode) (dir : ℕ) : Program (Handle σ) FResult := do
  let fs ← onVol getFs
  let attr := fs.win.at (dir + 11)
  if mode.createAlways ∨ mode.openAlways ∨ mode.createNew then
    if attr &&& 0x11 ≠ 0 then refuse .frDenied
    else if mode.createNew then refuse .frExist
    else if mode.createAlways then
      let res ← onVol (overwriteEntry d dir)
      if res = .frOk then openObject d mode dir else refuse res
    else openObject d mode dir
  else if attr &&& 0x10 ≠ 0 then refuse .frNoFile
  else if mode.write ∧ attr &&& 0x01 ≠ 0 then refuse .frDenied
  else openObject d mode dir

/-! ## Files on a volume -/

/-- Flags with which a file with these attributes is opened. -/
def OpenMode.Permits (mode : OpenMode) (attr : UInt8) : Prop :=
  if mode.createAlways ∨ mode.openAlways ∨ mode.createNew then
    attr &&& 0x11 = 0 ∧ mode.createNew = false
  else attr &&& 0x10 = 0 ∧ (mode.write = true → attr &&& 0x01 = 0)

/-- What is answered where they do not permit it. -/
def OpenMode.refusal (mode : OpenMode) (attr : UInt8) : FResult :=
  if mode.createAlways ∨ mode.openAlways ∨ mode.createNew then
    if attr &&& 0x11 = 0 then .frExist else .frDenied
  else if attr &&& 0x10 = 0 then .frDenied else .frNoFile

theorem OpenMode.refusal_ne_ok (mode : OpenMode) (attr : UInt8) : mode.refusal attr ≠ .frOk := by
  unfold OpenMode.refusal
  split_ifs <;> decide

/-- The attributes of the entry. -/
def Volume.attr (d : Storage σ) (v : Volume σ) (sect : UInt32) (dir : ℕ) : UInt8 :=
  (v.view d sect).at (dir + 11)

/-- A byte of a file on the volume. -/
def Volume.byte (d : Storage σ) (v : Volume σ) (l : List UInt32) (p : ℕ) : UInt8 :=
  (v.view d (v.fs.fileSect l (p / 512))).at p

/-- The volume has a file of `n` bytes with the clusters `l`, whose directory entry is at `dir`
of the sector `sect`. -/
structure Volume.HasFile (d : Storage σ) (P : Set UInt32) (v : Volume σ) (sect : UInt32) (dir : ℕ)
    (l : List UInt32) (n : UInt32) : Prop extends Volume.Owned d P v l where
  visible : v.fs.Visible sect
  notInFat : ¬ v.fs.InFat sect
  outside : ¬ v.fs.InClusters Pᶜ sect
  room : dir + 32 ≤ 512
  clust : ldClust v.fs.fsType (v.view d sect) dir = l.headD 0
  size : ldDword (v.view d sect) (dir + 28) = n
  fits : n.toNat ≤ 512 * v.fs.sectors l

section Files

variable {d} {P : Set UInt32} {v v' v₀ : Volume σ} {h h' : Handle σ} {l : List UInt32}
  {sect n : UInt32} {dir q : ℕ} {mode : OpenMode}

/-- No sector of a file has the number 0, which the new object has for its buffer. -/
theorem fileSect_ne_zero {g : FatGeometry} (hg : g.WellFormed) (hmem : ∀ c ∈ l, g.IsCluster c)
    {k : ℕ} (hk : k < g.sectors l) : g.fileSect l k ≠ 0 := by
  obtain ⟨c, -, i, hc, hi, heq⟩ := exists_fileSect hg hmem hk
  have hlow := (data_bounds hg hc hi).1
  have hfats := hg.fats_le.1
  have hres := hg.reserved
  rw [heq]
  intro h0
  rw [h0, UInt32.toNat_zero] at hlow
  split_ifs at hres <;> omega

/-- The pointer is set to another place in the file. -/
theorem Handle.Grows.set_ptr {l' : List UInt32} {p : UInt32} (hg : h.Grows d P h' l l')
    (hp : p.toNat ≤ h'.fil.objsize.toNat) :
    h.Grows d P { h' with fil := { h'.fil with fptr := p } } l l' :=
  ⟨⟨hg.owned, hg.start, hg.size, hp, hg.dirty, hg.clean⟩, hg.keeps, hg.relinks, hg.tail, hg.byte⟩

/-- The volume has only been read : the file is as it was, and so is all that is seen. -/
structure Handle.Looks (d : Storage σ) (P : Set UInt32) (h h' : Handle σ) (l : List UInt32) :
    Prop extends Handle.Grows d P h h' l l where
  view : h'.vol.view d = h.vol.view d

theorem Handle.Looks.trans {h'' : Handle σ} (hl : h.Looks d P h' l) (hl' : h'.Looks d P h'' l) :
    h.Looks d P h'' l :=
  ⟨hl.toGrows.trans hl'.toGrows, hl'.view.trans hl.view⟩

/-- The object as it is on the way to the end of the file, with the cluster `q` of the file. -/
structure Handle.Ends (d : Storage σ) (P : Set UInt32) (h h' : Handle σ) (l : List UInt32)
    (q rest : ℕ) (clst : UInt32) : Prop extends Handle.Looks d P h h' l where
  fil : h'.fil = h.fil
  clust : l[q]? = some clst
  sum : q * (512 * h.vol.fs.csize.toNat) + rest = h.fil.objsize.toNat
  left : 0 < rest

/-- One step towards the end. -/
theorem endBody_returns {ofs clst : UInt32} (he : h.Ends d P h' l q ofs.toNat clst) :
    Returns (endBody d (ofs, clst)) h' fun r h'' =>
      (∃ ofs' clst', r = .inl (ofs', clst') ∧ ofs'.toNat < ofs.toNat ∧
          h.Ends d P h'' l (q + 1) ofs'.toNat clst') ∨
        (r = .inr (.frOk, ofs, clst) ∧ ofs.toNat ≤ 512 * h.vol.fs.csize.toNat ∧ h'' = h') ∨
        (r = .inr (.frDiskErr, ofs, diskError) ∧ ¬ d.Reliable ∧ h.Looks d P h'' l) := by
  have hg := he.owned.geometry
  have hgeom := he.fs
  have hB := toNat_bytesOfCluster hg
  rw [show h'.vol.fs.csize = h.vol.fs.csize from congrArg FatGeometry.csize hgeom] at hB
  have hcpos := hg.csize_pos
  rw [show h'.vol.fs.csize = h.vol.fs.csize from congrArg FatGeometry.csize hgeom] at hcpos
  have hBpos : 0 < 512 * h.vol.fs.csize.toNat := by omega
  set B := 512 * h.vol.fs.csize.toNat with hBdef
  have hsum : q * B + ofs.toNat = h.fil.objsize.toNat := he.sum
  unfold endBody
  rw [returns_bind, returns_onVol, returns_getFs]
  refine Returns.ite (fun hmore => ?_) fun hdone => ?_
  swap
  · rw [UInt32.lt_iff_toNat_lt, hB] at hdone
    exact .inr (.inl ⟨rfl, by omega, rfl⟩)
  rw [UInt32.lt_iff_toNat_lt, hB] at hmore
  have hnext : (q + 1) * B < h.fil.objsize.toNat := by
    rw [Nat.add_mul, Nat.one_mul]
    omega
  -- there is a next cluster, as the file is in its clusters
  have hlt : q + 1 < l.length := by
    have hsize := he.size
    rw [he.fil, hgeom, FatGeometry.sectors, Nat.mul_left_comm] at hsize
    exact Nat.lt_of_mul_lt_mul_right (lt_of_lt_of_le hnext hsize)
  rw [returns_bind, returns_onVol]
  refine (getFat_next he.owned.toChained he.clust hlt).imp ?_
  rintro val v ⟨hr, hval | ⟨rfl, hd⟩⟩
  · have hlooks : h.Looks d P { h' with vol := v } l :=
      he.toLooks.trans ⟨he.toFits.reads hr, hr.view⟩
    have hcl := he.owned.mem val (List.mem_of_getElem? hval)
    have hone : ¬ val ≤ 1 := fun hle => absurd (UInt32.le_trans hcl.1 hle) (by decide)
    have hrest : (ofs - bytesOfCluster h'.vol.fs.toFatGeometry).toNat = ofs.toNat - B := by
      rw [UInt32.toNat_sub_of_le _ _ (UInt32.le_iff_toNat_le.2 (by omega)), hB]
    rw [if_neg (cluster_ne_diskError hg hcl), if_neg hone]
    refine .inl ⟨_, _, rfl, by omega, hlooks, he.fil, hval, ?_, by omega⟩
    rw [← hBdef, hrest, Nat.add_mul, Nat.one_mul]
    omega
  · rw [if_pos rfl]
    exact .inr (.inr ⟨rfl, hd, he.toLooks.trans ⟨he.toFits.reads hr, hr.view⟩⟩)

/-- The sector of the end is read into the buffer. -/
theorem endLoad_returns (he : h.Ends d P h' l q n.toNat sect)
    (hle : n.toNat ≤ 512 * h.vol.fs.csize.toNat) (hclean : h.fil.faDirty = false)
    (hptr : h.fil.fptr = h.fil.objsize) :
    Returns (endLoad d n sect) { h' with fil := { h'.fil with clust := sect } } fun r h'' =>
      h''.vol.view d = h.vol.view d ∧ h.vol.Keeps d P h''.vol ∧
        ((r = .frOk ∧ h.Looks d P h'' l ∧ h''.At l ∧
            h''.fil = { h.fil with
              clust := h''.fil.clust, sect := h''.fil.sect, buf := h''.fil.buf }) ∨
          (r = .frDiskErr ∧ ¬ d.Reliable ∧ h''.fil.opened = false)) := by
  have hgeom := he.fs
  have hsum := he.sum
  obtain ⟨hlast, hsect⟩ := div_cluster (q := q) he.left hle
  rw [hsum] at hlast hsect
  have hmod : n % 512 ≠ 0 ↔ h.fil.objsize.toNat % 512 ≠ 0 := by
    have hmul : q * (512 * h.vol.fs.csize.toNat) = 512 * (q * h.vol.fs.csize.toNat) :=
      Nat.mul_left_comm ..
    rw [Ne, mod_512_eq_zero]
    omega
  set h₁ : Handle σ := { h' with fil := { h'.fil with clust := sect } } with hh₁
  have hl₁ : h.Looks d P h₁ l := ⟨he.toGrows.set_clust sect, he.view⟩
  have hclust : 0 < h₁.fil.fptr.toNat →
      l[(h₁.fil.fptr.toNat - 1) / 512 / h₁.vol.fs.csize.toNat]? = some h₁.fil.clust := by
    intro _
    simp only [hh₁, he.fil, hptr, hgeom, hlast]
    exact he.clust
  unfold endLoad
  rw [returns_bind, returns_onVol, returns_getFs]
  refine Returns.ite (fun hne => ?_) fun hzero => ?_
  swap
  · refine ⟨he.view, he.keeps, .inl ⟨rfl, hl₁, ⟨hclust, fun hne => absurd ?_ hzero⟩, by
      rw [hh₁, he.fil]⟩⟩
    rw [hmod, ← hptr, ← he.fil]
    exact hne
  rw [hmod] at hne
  have hrest : n.toNat % 512 ≠ 0 := fun h0 => hmod.2 hne (mod_512_eq_zero.2 h0)
  obtain ⟨hdiv, hlt⟩ := hsect hrest
  have hcpos : 0 < h.vol.fs.csize.toNat := by omega
  have hk : h.fil.objsize.toNat / 512 / h.vol.fs.csize.toNat = q := by
    rw [hdiv, Nat.mul_add_div hcpos, Nat.div_eq_of_lt hlt, Nat.add_zero]
  have hcl : h₁.ClustAt l (h.fil.objsize.toNat / 512) := by
    rw [Handle.ClustAt, hgeom, hk]
    exact he.clust
  have hsect' : clst2sect h₁.vol.fs.toFatGeometry sect + n / 512 =
      h₁.vol.fs.fileSect l (h.fil.objsize.toNat / 512) := by
    refine hcl.sect_eq ?_
    rw [UInt32.toNat_div, hgeom, hdiv, Nat.mul_add_mod, Nat.mod_eq_of_lt hlt]
    rfl
  have hin : h.fil.objsize.toNat / 512 < h₁.vol.fs.sectors l := by
    have hsize := hl₁.size
    simp only [hh₁, he.fil] at hsize ⊢
    omega
  rw [if_neg (hcl.sect_ne_zero hl₁.toFits), hsect', returns_bind, returns_onVol]
  refine (diskReads_file hl₁.owned (m := 1)
    (Nat.mod_lt _ hl₁.owned.geometry.csize_pos) hin).imp ?_
  rintro ⟨status, data⟩ w ⟨hw, hr⟩
  have hview : w.view d = h₁.vol.view d := hw.view_eq
  have hread := hl₁.toFits.read hw
  rw [returns_bind, returns_modifyFil]
  refine Returns.ite (fun hok => ?_) fun hok =>
    ⟨hview.trans he.view, he.keeps.trans hw.toKeeps, .inr ⟨rfl,
      (hr.resolve_left fun h => hok h.1).2, rfl⟩⟩
  have hdata : data 0 = h₁.vol.view d (h₁.vol.fs.fileSect l (h.fil.objsize.toNat / 512)) :=
    (hr.resolve_right fun h => h.1 hok).2 0 (by decide)
  have hload := hread.toFits.load (b := data 0)
    (s := h₁.vol.fs.fileSect l (h.fil.objsize.toNat / 512)) (by rw [hh₁, he.fil]; exact hclean)
    fun p _ _ => by rw [hdata, hview]
  refine ⟨hview.trans he.view, he.keeps.trans hw.toKeeps, .inl ⟨rfl,
    ⟨hl₁.toGrows.trans (hread.trans hload), hview.trans he.view⟩, ⟨fun hpos => ?_, fun _ => ?_⟩,
    by rw [hh₁, he.fil]⟩⟩
  · simp only [hw.fs]
    exact hclust hpos
  · simp only [hw.fs, hh₁, he.fil, hptr]

/-- The pointer is set to the end of the file. -/
theorem openEnd_returns (hf : h.Fits d P l) (hclean : h.fil.faDirty = false)
    (hpos : 0 < h.fil.objsize.toNat) :
    Returns (openEnd d) h fun r h' =>
      h'.vol.view d = h.vol.view d ∧ h.vol.Keeps d P h'.vol ∧
        ((r = .frOk ∧ h.Looks d P h' l ∧ h'.At l ∧
            h'.fil = { h.fil with
              fptr := h.fil.objsize, clust := h'.fil.clust, sect := h'.fil.sect,
              buf := h'.fil.buf }) ∨
          (r = .frDiskErr ∧ ¬ d.Reliable ∧ h'.fil.opened = false)) := by
  have hmove := (Handle.Grows.refl hf).set_ptr (p := h.fil.objsize) le_rfl
  set h₁ : Handle σ := { h with fil := { h.fil with fptr := h.fil.objsize } } with hh₁
  have hone : h.Looks d P h₁ l := ⟨hmove, rfl⟩
  -- a file that is not empty has a first cluster
  have hfirst : l[0]? = some h.fil.sclust := by
    have hsize := hf.size
    have hstart := hf.start
    cases l with
    | nil =>
      simp only [FatGeometry.sectors, List.length_nil] at hsize
      omega
    | cons a l =>
      rw [hstart]
      rfl
  have hbegin : h₁.Ends d P h₁ l 0 h.fil.objsize.toNat h.fil.sclust := by
    have hrefl : h₁.Looks d P h₁ l := ⟨.refl hmove.toFits, rfl⟩
    refine ⟨hrefl, rfl, hfirst, ?_, hpos⟩
    rw [Nat.zero_mul, Nat.zero_add]
  unfold openEnd
  rw [returns_bind, returns_getFil, returns_bind, returns_modifyFil]
  refine Returns.bind (Returns.iterate
    (J := fun b h₂ => ∃ q, h₁.Ends d P h₂ l q b.1.toNat b.2)
    (R := fun r h₂ =>
      (∃ q ofs clst, r = (.frOk, ofs, clst) ∧ h₁.Ends d P h₂ l q ofs.toNat clst ∧
        ofs.toNat ≤ 512 * h₁.vol.fs.csize.toNat) ∨
      (∃ ofs, r = (.frDiskErr, ofs, diskError) ∧ ¬ d.Reliable ∧ h₁.Looks d P h₂ l))
    (fun b _ => b.1.toNat) ?_ _ _ _ ⟨0, hbegin⟩ (Nat.lt_succ_self _)) ?_
  · rintro ⟨ofs, clst⟩ h₂ ⟨q, he⟩
    refine (endBody_returns he).imp ?_
    rintro r h₃ (⟨ofs', clst', rfl, hlt, he'⟩ | ⟨rfl, hle, rfl⟩ | ⟨rfl, hd, hl⟩)
    · exact ⟨⟨q + 1, he'⟩, hlt⟩
    · exact .inl ⟨q, ofs, clst, rfl, he, hle⟩
    · exact .inr ⟨ofs, rfl, hd, hl⟩
  · rintro r h₂ (⟨q, ofs, clst, rfl, he, hle⟩ | ⟨ofs, rfl, hd, hl⟩)
    · rw [returns_bind, returns_modifyFil, if_pos rfl]
      refine (endLoad_returns he hle hclean rfl).imp ?_
      rintro r h₃ ⟨hview, hk, ⟨rfl, hl, hat, hfil⟩ | hfail⟩
      · exact ⟨hview, hk, .inl ⟨rfl, hone.trans hl, hat, hfil⟩⟩
      · exact ⟨hview, hk, .inr hfail⟩
    · rw [returns_bind, returns_modifyFil, if_neg (by decide)]
      exact ⟨hl.view, hl.keeps, .inr ⟨rfl, hd, rfl⟩⟩

/-- The object of the file with the entry at `dir` of the sector `sect`, as `f_open` makes it. -/
structure Handle.Opened (d : Storage σ) (P : Set UInt32) (h : Handle σ) (mode : OpenMode)
    (sect : UInt32) (dir : ℕ) (l : List UInt32) (n : UInt32) : Prop
    extends Handle.Fits d P h l where
  at_ : h.At l
  inDir : h.InDir P
  opened : h.fil.opened = true
  err : h.fil.err = .frOk
  faRead : h.fil.faRead = mode.read
  faWrite : h.fil.faWrite = mode.write
  faModified : h.fil.faModified = mode.createAlways
  faDirty : h.fil.faDirty = false
  objsize : h.fil.objsize = n
  fptr : h.fil.fptr = if mode.seekEnd then n else 0
  dirSect : h.fil.dirSect = sect
  dirPtr : h.fil.dirPtr = dir

theorem Handle.Opened.byte (ho : h.Opened d P mode sect dir l n) (p : ℕ) :
    h.byte d l p = h.vol.byte d l p := by
  rw [Handle.byte_of_clean ho.faDirty, Volume.byte]

theorem Volume.HasFile.win (hv : v.HasFile d P sect dir l n) (hwin : v.fs.winsect = sect) :
    v.fs.win = v.view d sect := by
  have hseen := hv.coherent.win (by rw [hwin]; exact hv.visible)
  rwa [hwin] at hseen

/-- The file is on the volume as long as the same is seen. -/
theorem Volume.HasFile.seen (hv : v.HasFile d P sect dir l n) (ho : v'.Owned d P l)
    (hg : v'.fs.toFatGeometry = v.fs.toFatGeometry) (hview : v'.view d = v.view d) :
    v'.HasFile d P sect dir l n := by
  refine ⟨ho, ?_, ?_, ?_, hv.room, ?_, ?_, ?_⟩
  · rw [hg]
    exact hv.visible
  · rw [hg]
    exact hv.notInFat
  · rw [hg]
    exact hv.outside
  · rw [hview, hg]
    exact hv.clust
  · rw [hview]
    exact hv.size
  · rw [hg]
    exact hv.fits

/-- The object that is made of an entry. -/
theorem openObject_returns (hv : h.vol.HasFile d P sect dir l n)
    (hwin : h.vol.fs.winsect = sect) :
    Returns (openObject d mode dir) h fun r h' =>
      h'.vol.view d = h.vol.view d ∧ h.vol.Keeps d P h'.vol ∧
        ((r = .frOk ∧ h'.Opened d P mode sect dir l n ∧ h.vol.Relinks d h'.vol l l) ∨
          (r = .frDiskErr ∧ ¬ d.Reliable ∧ h'.fil.opened = false)) := by
  have hseen := hv.win hwin
  have hcl : ldClust h.vol.fs.fsType h.vol.fs.win dir = l.headD 0 := by rw [hseen, hv.clust]
  have hsize : ldDword h.vol.fs.win (dir + 28) = n := by rw [hseen, hv.size]
  unfold openObject
  rw [returns_bind, returns_onVol, returns_getFs, returns_bind, returns_modifyFil, returns_bind,
    returns_getFil, hcl, hsize, hwin]
  set f : Fil := { h.fil with
    opened := true
    sclust := l.headD 0
    objsize := n
    faRead := mode.read
    faWrite := mode.write
    faModified := mode.createAlways
    faDirty := false
    err := .frOk
    fptr := 0
    sect := 0
    dirSect := sect
    dirPtr := dir
    buf := fun _ => 0 } with hfdef
  have hfits : Handle.Fits d P { h with fil := f } l := by
    refine ⟨hv.toOwned, rfl, hv.fits, Nat.zero_le _, fun hd => absurd hd (by simp [hfdef]),
      fun _ p hp hs => absurd hs ?_⟩
    have hp' : p < n.toNat := hp
    have hle := hv.fits
    exact fileSect_ne_zero hv.geometry hv.mem (by omega)
  have hdir : Handle.InDir P { h with fil := f } := ⟨hv.visible, hv.notInFat, hv.outside, hv.room⟩
  refine Returns.ite (fun hend => ?_) fun hbegin => ?_
  · refine (openEnd_returns hfits rfl (UInt32.lt_iff_toNat_lt.1 hend.2)).imp ?_
    rintro r h' ⟨hview, hk, ⟨rfl, hl, hat, hfil⟩ | hfail⟩
    swap
    · exact ⟨hview, hk, .inr hfail⟩
    refine ⟨hview, hk, .inl ⟨rfl, ⟨hl.toFits, hat, ?_, ?_, ?_, ?_, ?_, ?_, ?_, ?_, ?_, ?_, ?_⟩,
      hl.relinks⟩⟩
    · exact hdir.congr hl.fs (by rw [hfil]) (by rw [hfil])
    all_goals rw [hfil]
    rw [if_pos hend.1]
  · refine ⟨rfl, .refl hv.coherent, .inl ⟨rfl, ⟨hfits, ?_, hdir, rfl, rfl, rfl, rfl, rfl, rfl, rfl,
      ?_, rfl, rfl⟩, (Handle.Grows.refl hfits).relinks⟩⟩
    · exact ⟨fun h0 => absurd h0 (Nat.lt_irrefl 0), fun h0 => absurd rfl h0⟩
    · split_ifs with hs
      · have hzero : ¬ 0 < n := fun h0 => hbegin ⟨hs, h0⟩
        exact (UInt32.le_zero_iff.1 (UInt32.not_lt.1 hzero)).symm
      · rfl

/-- The entry of the file that is thrown away is that of an empty one. -/
theorem dirReset_clust {t : FsType} {p : Sector} (hdir : dir + 32 ≤ 512) :
    ldClust t (dirReset t dir p) dir = 0 := by
  unfold dirReset
  rw [ldClust_congr fun j _ _ => stDword_at (by omega) (by omega) (by omega),
    ldClust_stClust hdir fun _ => by decide]

theorem dirReset_size {t : FsType} {p : Sector} (hdir : dir + 32 ≤ 512) :
    ldDword (dirReset t dir p) (dir + 28) = 0 := by
  unfold dirReset
  rw [ldDword_stDword (by omega)]

/-- What is left by a change of the directory entry in `sect` and of clusters outside `P`. -/
structure Volume.Edits (d : Storage σ) (P : Set UInt32) (v v' : Volume σ) (sect : UInt32) :
    Prop where
  geometry : v'.fs.toFatGeometry = v.fs.toFatGeometry
  moves : v.fs.Moves sect v'.fs.winsect
  coherent : v'.Coherent d
  link : ∀ c ∈ P, v.fs.IsCluster c → v'.link d c = v.link d c
  view : ∀ s, s ≠ sect → ¬ v.fs.InFat s → v'.view d s = v.view d s

theorem Volume.Edits.trans {v'' : Volume σ} (he : v.Edits d P v' sect)
    (he' : v'.Edits d P v'' sect) : v.Edits d P v'' sect := by
  have hg := he.geometry
  refine ⟨he'.geometry.trans hg, ?_, he'.coherent, fun c hc hcl => ?_, fun s hs hfat => ?_⟩
  · rw [← hg]
    exact he'.moves
  · rw [he'.link c hc (by rwa [hg]), he.link c hc hcl]
  · rw [he'.view s hs (by rwa [hg]), he.view s hs hfat]

theorem Volume.Edits.refl (hc : v.Coherent d) (hwin : v.fs.winsect = sect) :
    v.Edits d P v sect :=
  ⟨rfl, .inl hwin, hc, fun _ _ _ => rfl, fun _ _ _ => rfl⟩

theorem Volume.Keeps.edits (hk : v.Keeps d P v') (hwin : v.fs.winsect = sect)
    (hview : v'.view d = v.view d) : v.Edits d P v' sect :=
  ⟨hk.geometry, hwin ▸ hk.moves, hk.coherent, hk.link, fun s _ _ => by rw [hview]⟩

/-- An entry that has been reset is that of an empty file. -/
theorem Volume.HasFile.emptied (hv : v.HasFile d P sect dir l n) (he : v.Edits d P v' sect)
    (hview : v'.view d sect = dirReset v.fs.fsType dir (v.view d sect))
    (hsect : v'.fs.winsect = sect) : v'.HasFile d P sect dir [] 0 := by
  have hg := he.geometry
  have ht : v'.fs.fsType = v.fs.fsType := congrArg FatGeometry.fsType hg
  refine ⟨⟨⟨by rw [hg]; exact hv.geometry, he.coherent, List.forall_mem_nil _, Link.leads_nil⟩,
    List.forall_mem_nil _, fun c hc hcl => ?_, ?_⟩, ?_, ?_, ?_, hv.room, ?_, ?_, Nat.zero_le _⟩
  · rw [hg] at hcl
    rw [he.link c hc hcl]
    exact hv.used c hc hcl
  · rw [hg, hsect]
    exact hv.outside
  · rw [hg]
    exact hv.visible
  · rw [hg]
    exact hv.notInFat
  · rw [hg]
    exact hv.outside
  · rw [ht, hview, dirReset_clust hv.room]
    rfl
  · rw [hview, dirReset_size hv.room]

/-- The window is moved back to the sector of the entry. -/
theorem Volume.Edits.returns_back (he : v.Edits d P v' sect) (lastClst : UInt32) :
    Returns (do
      let res ← moveWindow d sect
      modifyFs fun fs => { fs with lastClst := lastClst }
      pure res) v' fun r v'' =>
        v.Edits d P v'' sect ∧ v''.view d = v'.view d ∧ v'.Relinks d v'' [] [] ∧
          ((r = .frOk ∧ v''.fs.winsect = sect) ∨ (r = .frDiskErr ∧ ¬ d.Reliable)) := by
  rw [returns_bind]
  refine (moveWindow_returns he.coherent sect).imp ?_
  rintro r w ⟨hsame, hr⟩
  rw [returns_bind, returns_modifyFs]
  set v'' := w.setFs fun fs => { fs with lastClst := lastClst } with hv''
  have hview : v''.view d = v'.view d := by rw [← hsame.view]; rfl
  have hgeom : v''.fs.toFatGeometry = v'.fs.toFatGeometry := hsame.geometry
  have hentry := Volume.entry_of_view hgeom hview
  have hedit : v.Edits d P v'' sect := by
    refine he.trans ⟨hgeom, ?_, hsame.coherent, fun c _ _ => ?_, fun s _ _ => by rw [hview]⟩
    · obtain ⟨-, hsect, -⟩ | ⟨-, -, hstay | hno⟩ := hr
      · exact .inl hsect
      · have hmoves := he.moves
        rw [← he.geometry, ← hstay] at hmoves
        exact hmoves
      · exact .inr (.inl hno)
    · rw [Volume.link_of_entry hgeom hentry]
  have hrel : v'.Relinks d v'' [] [] :=
    .of_entry Link.leads_nil hgeom hentry (by rw [hv'', Volume.setFs, hsame.fs])
  exact ⟨hedit, hview, hrel, hr.imp (fun hok => ⟨hok.1, hok.2.1⟩) fun hno => ⟨hno.1, hno.2.1⟩⟩

/-- The entry is one of an empty file after the call, and the clusters are free. -/
theorem overwriteEntry_returns (hv : v.HasFile d P sect dir l n) (hwin : v.fs.winsect = sect) :
    Returns (overwriteEntry d dir) v fun r v' =>
      v.Edits d P v' sect ∧
        ((r = .frOk ∧ v'.HasFile d P sect dir [] 0 ∧ v'.fs.winsect = sect ∧
            v.Relinks d v' l []) ∨
          (r = .frDiskErr ∧ ¬ d.Reliable)) := by
  have hg := hv.geometry
  have hseen := hv.win hwin
  have hcl : ldClust v.fs.fsType v.fs.win dir = l.headD 0 := by rw [hseen, hv.clust]
  unfold overwriteEntry
  rw [returns_bind, returns_getFs, returns_bind]
  refine (editWin_returns (dirReset v.fs.fsType dir) (Volume.Same.refl hv.coherent)
    (by rw [hwin]; exact hv.visible)).imp ?_
  rintro - v₁ ⟨hshows, hwin₁, -⟩
  rw [hcl]
  rw [hseen, hwin] at hshows
  rw [hwin] at hwin₁
  have hgeom := hshows.geometry
  have hentry : v₁.entry d = v.entry d := by
    refine Volume.entry_congr hg hgeom fun s hs => ?_
    rw [hshows.view, Function.update_of_ne]
    rintro rfl
    exact hv.notInFat hs
  have hlink := Volume.link_of_entry hgeom hentry
  have hedit : v.Edits d P v₁ sect := by
    refine ⟨hgeom, .inl hwin₁, hshows.coherent, fun c _ _ => by rw [hlink],
      fun s hs _ => ?_⟩
    rw [hshows.view, Function.update_of_ne hs]
  have hrel : v.Relinks d v₁ l l := .of_entry hv.leads hgeom hentry (by rw [hshows.fs])
  have hview₁ : v₁.view d sect = dirReset v.fs.fsType dir (v.view d sect) := by
    rw [hshows.view, Function.update_self]
  cases l with
  | nil =>
    rw [if_neg (by simp)]
    exact ⟨hedit, .inl ⟨rfl, hv.emptied hedit hview₁ hwin₁, hwin₁, hrel⟩⟩
  | cons a l =>
    have hchained : v₁.Chained d (a :: l) := by
      refine ⟨by rwa [hgeom], hshows.coherent, ?_, by rw [hlink]; exact hv.leads⟩
      rw [hgeom]
      exact hv.mem
    have howned : v₁.Owned d P (a :: l) := by
      refine ⟨hchained, hv.apart, ?_, ?_⟩
      · rw [hlink, hgeom]
        exact hv.used
      · rw [hgeom, hwin₁]
        exact hv.outside
    have hspares : ∀ w, v₁.Spares d w (a :: l) → v.Edits d P w sect := by
      intro w hs
      refine hedit.trans ⟨hs.geometry, ?_, hs.coherent, (howned.keeps hs).link,
        fun s _ hfat => hs.view s hfat⟩
      rw [← hwin₁]
      exact hs.moves
    rw [List.headD_cons, if_pos (ne_zero_of_cluster (hv.mem a (by simp))), returns_bind]
    refine (removeChain_releases hchained).imp ?_
    rintro r v₂ (⟨rfl, ht⟩ | ⟨rfl, hd, hs⟩)
    swap
    · rw [if_neg (by decide)]
      exact ⟨hspares v₂ hs, .inr ⟨rfl, hd⟩⟩
    rw [if_pos rfl, hwin]
    refine ((hspares v₂ ht.spares).returns_back (a - 1)).imp ?_
    rintro r v₃ ⟨hedit₃, hview₃, hlast, ⟨rfl, hsect⟩ | hfail⟩
    · have hseen : v₃.view d sect = dirReset v.fs.fsType dir (v.view d sect) := by
        rw [hview₃, ht.view sect (by rw [hgeom]; exact hv.notInFat), hview₁]
      exact ⟨hedit₃, .inl ⟨rfl, hv.emptied hedit₃ hseen hsect, hsect,
        hrel.trans (ht.toRelinks.trans hlast)⟩⟩
    · exact ⟨hedit₃, .inr hfail⟩

/-- What comes of the entry in the window. -/
inductive Handle.Comes (d : Storage σ) (P : Set UInt32) (h : Handle σ) (mode : OpenMode)
    (sect : UInt32) (dir : ℕ) (l : List UInt32) (n : UInt32) : FResult → Handle σ → Prop where
  /-- It is left alone if the file may not be opened like this. -/
  | refused {h' : Handle σ} (hno : ¬ mode.Permits (h.vol.attr d sect dir))
      (hvol : h'.vol = h.vol) (hclosed : h'.fil.opened = false) :
      h.Comes d P mode sect dir l n (mode.refusal (h.vol.attr d sect dir)) h'
  /-- The file has the bytes that it has on the volume. -/
  | found {h' : Handle σ} (hmode : mode.Permits (h.vol.attr d sect dir))
      (hkeep : mode.createAlways = false) (hopened : h'.Opened d P mode sect dir l n)
      (hview : h'.vol.view d = h.vol.view d) (hrelinks : h.vol.Relinks d h'.vol l l)
      (hbyte : ∀ p, h'.byte d l p = h.vol.byte d l p) : h.Comes d P mode sect dir l n .frOk h'
  /-- The file is empty, and the clusters that it had are free. -/
  | emptied {h' : Handle σ} (hmode : mode.Permits (h.vol.attr d sect dir))
      (hnew : mode.createAlways = true) (hopened : h'.Opened d P mode sect dir [] 0)
      (hfile : h'.vol.HasFile d P sect dir [] 0) (hrelinks : h.vol.Relinks d h'.vol l []) :
      h.Comes d P mode sect dir l n .frOk h'
  | failed {h' : Handle σ} (hmode : mode.Permits (h.vol.attr d sect dir)) (hd : ¬ d.Reliable)
      (hclosed : h'.fil.opened = false) : h.Comes d P mode sect dir l n .frDiskErr h'

/-- `f_open` from the entry of a file on : whatever comes of it, nothing else changes but the
entry and the clusters of the file. -/
theorem openFound_returns (hv : h.vol.HasFile d P sect dir l n) (hwin : h.vol.fs.winsect = sect) :
    Returns (openFound d mode dir) h fun r h' =>
      h.vol.Edits d P h'.vol sect ∧ h.Comes d P mode sect dir l n r h' := by
  have hattr : h.vol.fs.win.at (dir + 11) = h.vol.attr d sect dir := by
    rw [hv.win hwin, Volume.attr]
  have hrefuse : ∀ res, res = mode.refusal (h.vol.attr d sect dir) →
      ¬ mode.Permits (h.vol.attr d sect dir) →
      Returns (refuse res) h fun r h' =>
        h.vol.Edits d P h'.vol sect ∧ h.Comes d P mode sect dir l n r h' := by
    rintro _ rfl hno
    exact ⟨.refl hv.coherent hwin, .refused hno rfl rfl⟩
  -- the file as it is
  have hkeep : mode.createAlways = false → mode.Permits (h.vol.attr d sect dir) →
      Returns (openObject d mode dir) h fun r h' =>
        h.vol.Edits d P h'.vol sect ∧ h.Comes d P mode sect dir l n r h' := by
    intro hnew hmode
    refine (openObject_returns hv hwin).imp ?_
    rintro r h' ⟨hview, hk, ⟨rfl, ho, hrel⟩ | ⟨rfl, hd, hclosed⟩⟩
    · refine ⟨hk.edits hwin hview, .found hmode hnew ho hview hrel fun p => ?_⟩
      rw [ho.byte, Volume.byte, Volume.byte, hview, hk.geometry]
    · exact ⟨hk.edits hwin hview, .failed hmode hd hclosed⟩
  unfold openFound
  rw [returns_bind, returns_onVol, returns_getFs, hattr]
  refine Returns.ite (fun hcreate => ?_) fun hcreate => ?_
  · have hpermits : mode.Permits (h.vol.attr d sect dir) ↔
        h.vol.attr d sect dir &&& 0x11 = 0 ∧ mode.createNew = false := by
      rw [OpenMode.Permits, if_pos hcreate]
    have hcode : mode.refusal (h.vol.attr d sect dir) =
        if h.vol.attr d sect dir &&& 0x11 = 0 then .frExist else .frDenied := by
      rw [OpenMode.refusal, if_pos hcreate]
    refine Returns.ite (fun hbad => hrefuse _ (by rw [hcode, if_neg hbad]) fun hm =>
      hbad (hpermits.1 hm).1) fun hfree => ?_
    have hfree := not_not.1 hfree
    refine Returns.ite (fun hnew => hrefuse _ (by rw [hcode, if_pos hfree]) fun hm => ?_)
      fun hnew => ?_
    · exact absurd (hnew.symm.trans (hpermits.1 hm).2) (by decide)
    have hmode := hpermits.2 ⟨hfree, by simpa using hnew⟩
    refine Returns.ite (fun hover => ?_) fun hover => hkeep (by simpa using hover) hmode
    rw [returns_bind, returns_onVol]
    refine (overwriteEntry_returns hv hwin).imp ?_
    rintro r v₁ ⟨he, ⟨rfl, hv₁, hwin₁, hrel⟩ | ⟨rfl, hd⟩⟩
    · rw [if_pos rfl]
      refine (openObject_returns (h := { h with vol := v₁ }) hv₁ hwin₁).imp ?_
      rintro r h' ⟨hview, hk, ⟨rfl, ho, hrel'⟩ | ⟨rfl, hd, hclosed⟩⟩
      · exact ⟨he.trans (hk.edits hwin₁ hview), .emptied hmode hover ho
          (hv₁.seen ho.owned hk.geometry hview) (hrel.trans hrel')⟩
      · exact ⟨he.trans (hk.edits hwin₁ hview), .failed hmode hd hclosed⟩
    · rw [if_neg (by decide)]
      exact ⟨he, .failed hmode hd rfl⟩
  · have hpermits : mode.Permits (h.vol.attr d sect dir) ↔
        h.vol.attr d sect dir &&& 0x10 = 0 ∧
          (mode.write = true → h.vol.attr d sect dir &&& 0x01 = 0) := by
      rw [OpenMode.Permits, if_neg hcreate]
    have hnew : mode.createAlways = false := by
      rw [not_or] at hcreate
      simpa using hcreate.1
    have hcode : mode.refusal (h.vol.attr d sect dir) =
        if h.vol.attr d sect dir &&& 0x10 = 0 then .frDenied else .frNoFile := by
      rw [OpenMode.refusal, if_neg (by simpa using hcreate)]
    refine Returns.ite (fun hbad => hrefuse _ (by rw [hcode, if_neg hbad]) fun hm =>
      hbad (hpermits.1 hm).1) fun hfile => ?_
    have hfile := not_not.1 hfile
    refine Returns.ite (fun hro => hrefuse _ (by rw [hcode, if_pos hfile]) fun hm =>
      hro.2 ((hpermits.1 hm).2 hro.1)) fun hrw => hkeep hnew (hpermits.2 ⟨hfile, fun hw => ?_⟩)
    by_contra hro
    exact hrw ⟨hw, hro⟩

/-! ## After a restart -/

/-- The volume as it is after it has been mounted again : the window is clean, and the medium is
the same. -/
structure Volume.Restarts (d : Storage σ) (v v₀ : Volume σ) : Prop where
  geometry : v₀.fs.toFatGeometry = v.fs.toFatGeometry
  clean : v₀.fs.wflag = false
  coherent : v₀.Coherent d
  medium : ∀ s, v.fs.Visible s → d.sector v₀.disk s = d.sector v.disk s

theorem Volume.Restarts.view (hr : v.Restarts d v₀)
    (hstored : ∀ s, v.fs.Visible s → d.sector v.disk s = v.view d s) : v₀.view d = v.view d := by
  refine Volume.view_congr hr.geometry fun s hs => ?_
  rw [Volume.view_of_clean hr.clean (by rwa [hr.geometry]), hr.medium s hs, hstored s hs]

/-- A file that has been stored is on the volume when it is mounted again, with the same
bytes. -/
theorem Handle.Stored.survives (hs : h.Stored d) (hf : h.Fits d P l) (hdir : h.InDir P)
    (hr : h.vol.Restarts d v₀) (haway : ¬ v₀.fs.InClusters Pᶜ v₀.fs.winsect) :
    v₀.HasFile d P h.fil.dirSect h.fil.dirPtr l h.fil.objsize ∧
      ∀ p, v₀.byte d l p = h.byte d l p := by
  have hview := hr.view hs.medium
  have hg := hr.geometry
  have hlink : v₀.link d = h.vol.link d :=
    Volume.link_of_entry hg (Volume.entry_of_view hg hview)
  have ht : v₀.fs.fsType = h.vol.fs.fsType := congrArg FatGeometry.fsType hg
  refine ⟨⟨⟨⟨?_, hr.coherent, ?_, ?_⟩, hf.owned.apart, ?_, haway⟩, ?_, ?_, ?_, hdir.room, ?_, ?_,
    ?_⟩, fun p => ?_⟩
  · rw [hg]
    exact hf.owned.geometry
  · rw [hg]
    exact hf.owned.mem
  · rw [hlink]
    exact hf.owned.leads
  · rw [hlink, hg]
    exact hf.owned.used
  · rw [hg]
    exact hdir.visible
  · rw [hg]
    exact hdir.notInFat
  · rw [hg]
    exact hdir.apart
  · rw [ht, hview, hs.clust, hf.start]
  · rw [hview, hs.size]
  · rw [hg]
    exact hf.size
  · rw [Volume.byte, hview, hg, Handle.byte_of_clean hs.clean]

/-- A file that `f_sync` has reported as stored is not lost : when the volume is mounted again
from what is on the medium, and the entry of the file is in the window, `f_open` makes an object
of it with the same bytes, unless its attributes forbid it or the drive fails. -/
theorem fSync_durable (hf : h.Fits d P l) (hdir : h.InDir P)
    (hmod : h.fil.faModified = true) (hmode : mode.createAlways = false) :
    Returns (fSync d) h fun r h₁ => r = .frOk →
      ∀ h₀ : Handle σ, h₁.vol.Restarts d h₀.vol → h₀.vol.fs.winsect = h.fil.dirSect →
        Returns (openFound d mode h.fil.dirPtr) h₀ fun r' h' =>
          (r' = .frOk ∧
              h'.Opened d P mode h.fil.dirSect h.fil.dirPtr l h.fil.objsize ∧
              ∀ p < h.fil.objsize.toNat, h'.byte d l p = h.byte d l p) ∨
            (r' ≠ .frOk ∧ h'.fil.opened = false ∧ (¬ d.Reliable ∨
              ¬ mode.Permits (h₀.vol.attr d h.fil.dirSect h.fil.dirPtr))) := by
  refine (fSync_returns hf hdir).imp ?_
  rintro r h₁ ⟨hs, hr⟩ rfl h₀ hrestart hwin
  obtain ⟨hbad, -⟩ | ⟨-, -, hclean, -⟩ | ⟨-, -, -, -, hstored⟩ | ⟨hbad, -⟩ := hr
  · exact absurd hbad (by decide)
  · exact absurd (hmod.symm.trans hclean) (by decide)
  swap
  · exact absurd hbad (by decide)
  have hsect : h₁.fil.dirSect = h.fil.dirSect := by rw [hs.fil]
  have hptr : h₁.fil.dirPtr = h.fil.dirPtr := by rw [hs.fil]
  have hsize : h₁.fil.objsize = h.fil.objsize := by rw [hs.fil]
  have hdir₁ : h₁.InDir P := hdir.congr hs.relinks.geometry hsect hptr
  have haway : ¬ h₀.vol.fs.InClusters Pᶜ h₀.vol.fs.winsect := by
    rw [hrestart.geometry, hwin, ← hsect]
    exact hdir₁.apart
  obtain ⟨hfile, hbyte⟩ := hstored.survives hs.toFits hdir₁ hrestart haway
  rw [hsect, hptr, hsize] at hfile
  refine (openFound_returns hfile hwin).imp ?_
  rintro r' h' ⟨-, hcomes⟩
  cases hcomes with
  | refused hno hvol hclosed => exact .inr ⟨mode.refusal_ne_ok _, hclosed, .inr hno⟩
  | found hpermits hkeep hopened hview hrelinks hbyte' =>
    refine .inl ⟨rfl, hopened, fun p hp => ?_⟩
    rw [hbyte' p, hbyte p, hs.byte p (hf.div_lt hp)]
  | emptied hpermits hnew => exact absurd (hmode.symm.trans hnew) (by decide)
  | failed hpermits hd hclosed => exact .inr ⟨by decide, hclosed, .inl hd⟩

end Files

/-- `FA_READ`. -/
def readMode : OpenMode where
  read := true
  write := false
  createNew := false
  createAlways := false
  openAlways := false
  seekEnd := false

/-- The file of the sample volume, which has been modified. -/
def sampleHandle : Handle (UInt32 → Sector) where
  vol := sampleVolume
  fil := sampleFil

/-- The medium after its `f_sync`, mounted again, with the root directory in the window. -/
def remountedHandle : Handle (UInt32 → Sector) where
  vol :=
    let medium := (exec (fSync ramDisk) sampleHandle).2.vol.disk
    { fs := { sampleVolume.fs with win := medium 2 }, disk := medium }
  fil := { sampleFil with opened := false }

theorem fSync_durable_sample :
    (exec (fSync ramDisk) sampleHandle).1 = some .frOk ∧
      Returns (openFound ramDisk readMode 0) remountedHandle fun r' h' =>
        r' = .frOk ∧ ∀ p < 5, h'.byte ramDisk [2] p = UInt8.ofNat p := by
  have hok : (exec (fSync ramDisk) sampleHandle).1 = some .frOk := by decide +kernel
  have hfits : sampleHandle.Fits ramDisk ∅ [2] := sampleFil_fits id id
  have hdir : sampleHandle.InDir ∅ := ⟨by decide, by decide, sampleGeometry_dir, by decide⟩
  obtain ⟨r, h₁, hexec, hdurable, hsaves, -⟩ := returns_iff.1
    ((fSync_durable hfits hdir rfl (rfl : readMode.createAlways = false)).and
      (fSync_returns hfits hdir))
  have hres : r = .frOk := by
    rw [hexec] at hok
    exact Option.some.inj hok
  have hrestart : h₁.vol.Restarts ramDisk remountedHandle.vol := by
    refine ⟨hsaves.relinks.geometry.symm, rfl, fun _ _ => rfl, fun s _ => ?_⟩
    simp only [remountedHandle, hexec]
  refine ⟨hok, (hdurable hres remountedHandle hrestart rfl).imp ?_⟩
  rintro r' h' (⟨rfl, -, hbyte⟩ | ⟨-, -, hd | hno⟩)
  · refine ⟨rfl, fun p hp => ?_⟩
    rw [hbyte p hp]
    exact (by decide : ∀ p < 5, sampleHandle.byte ramDisk [2] p = UInt8.ofNat p) p hp
  · exact absurd ramDisk_reliable hd
  · have hattr : remountedHandle.vol.attr ramDisk 2 0 &&& 0x10 = 0 := by decide +kernel
    exact absurd ⟨hattr, fun hwrite => absurd hwrite (by decide)⟩ hno

/-! ## Opening one more file -/

section More

variable {ι : Type} [DecidableEq ι] {d} {A : Set UInt32} {whole : Prop} {s : FileSys ι σ}
  {chain : ι → List UInt32} {table : ι → Option File} {i : ι} {l : List UInt32}
  {sect n : UInt32} {dir : ℕ} {mode : OpenMode}

theorem Volume.Edits.leaves {P : Set UInt32} {v v' : Volume σ} (he : v.Edits d P v' sect)
    (hg : v.fs.WellFormed) (hsect : ¬ v.fs.InClusters Aᶜ sect) : v.Leaves d A P v' := by
  refine ⟨he.geometry, he.coherent, he.link, fun x hx => ?_,
    fun _ => he.moves.not_inClusters hg hsect⟩
  refine he.view x ?_ (hx.not_inFat hg)
  rintro rfl
  exact hsect (hx.mono fun c hc => hc.2)

/-- The file that is opened : the bytes on the volume, with the pointer at one of its ends. -/
def OpenMode.file (mode : OpenMode) (data : List UInt8) : File where
  data := data
  pos := if mode.seekEnd then data.length else 0
  canRead := mode.read
  canWrite := mode.write
  pos_le := by split_ifs <;> simp

/-- What `f_open` for the object `i`, of the file with the entry at `dir` of the sector `sect` and
the clusters `l`, does to the volume and to the table of the open files. -/
inductive FileSys.Opens (d : Storage σ) (s s' : FileSys ι σ) (table : ι → Option File) (i : ι)
    (mode : OpenMode) (sect : UInt32) (dir : ℕ) (l : List UInt32) (n : UInt32) :
    FResult → (ι → Option File) → Prop where
  /-- The file has its bytes on the volume, where nothing has changed. -/
  | found (hmode : mode.Permits (s.vol.attr d sect dir)) (hkeep : mode.createAlways = false)
      (hview : s'.vol.view d = s.vol.view d) :
      s.Opens d s' table i mode sect dir l n .frOk
        (Function.update table i (some (mode.file (bytesFrom (s.vol.byte d l) 0 n.toNat))))
  /-- The entry is that of an empty file, the clusters that the file had are free, and nothing
  else has changed in the FAT. -/
  | emptied (hmode : mode.Permits (s.vol.attr d sect dir)) (hnew : mode.createAlways = true)
      (hclust : ldClust s'.vol.fs.fsType (s'.vol.view d sect) dir = 0)
      (hsize : ldDword (s'.vol.view d sect) (dir + 28) = 0)
      (hfree : ∀ c ∈ l, s'.vol.link d c = .free)
      (hkeeps : ∀ c ∉ l, s'.vol.link d c = s.vol.link d c) :
      s.Opens d s' table i mode sect dir l n .frOk
        (Function.update table i (some (mode.file [])))
  | refused (hno : ¬ mode.Permits (s.vol.attr d sect dir)) (hvol : s'.vol = s.vol) :
      s.Opens d s' table i mode sect dir l n (mode.refusal (s.vol.attr d sect dir)) table
  | failed (hmode : mode.Permits (s.vol.attr d sect dir)) (hd : ¬ d.Reliable) :
      s.Opens d s' table i mode sect dir l n .frDiskErr table

/-- The object of a file that has been opened. -/
theorem Handle.Opened.holds {P : Set UInt32} {h : Handle σ}
    (ho : h.Opened d P mode sect dir l n) (hdir : h.InDir A) :
    h.Holds d A P l (mode.file (bytesFrom (h.byte d l) 0 n.toNat)) := by
  refine ⟨ho.toFits, ho.at_, hdir, ho.opened, ho.err, ?_, ?_, ho.faRead.symm, ho.faWrite.symm⟩
  · rw [ho.objsize]
    rfl
  · rw [ho.fptr, OpenMode.file]
    split_ifs
    · exact length_bytesFrom ..
    · rfl

/-- `f_open` adds a file to the open ones, with the bytes that it has on the volume, or empties it
and frees its clusters, and the other ones stay as they are. It is refused where its attributes
and the flags say so, with the code that they say, and fails on a drive only that may fail. -/
theorem openFile_returns (hs : s.Sound d A whole chain table) (hi : table i = none)
    (hv : s.vol.HasFile d (others A chain table i) sect dir l n)
    (hwin : s.vol.fs.winsect = sect) :
    Returns (onFile i (openFound d mode dir)) s fun r s' => ∃ chain' table',
      s.Opens d s' table i mode sect dir l n r table' ∧
        s'.Sound d A (whole ∧ r ≠ .frDiskErr) chain' table' := by
  have hsect : ¬ s.vol.fs.InClusters Aᶜ sect := hwin ▸ hs.away
  have hnone : Function.update table i none = table := by
    rw [← hi]
    exact Function.update_eq_self i table
  unfold onFile
  rw [returns_zoom]
  refine (openFound_returns (h := s.handle i) hv hwin).imp ?_
  rintro r h' ⟨he, hcomes⟩
  have hleaves : s.vol.Leaves d A (others A chain table i) h'.vol :=
    he.leaves hs.geometry hsect
  -- the object is that of a file
  have hopened : ∀ l' n', h'.Opened d (others A chain table i) mode sect dir l' n' →
      s.vol.Relinks d h'.vol l l' →
      ∃ chain', (s.setHandle i h').Sound d A (whole ∧ r ≠ .frDiskErr) chain'
        (Function.update table i (some (mode.file (bytesFrom (h'.byte d l') 0 n'.toNat)))) := by
    intro l' n' ho hrel
    have hdir : h'.InDir A := by
      have hgeom : h'.vol.fs.toFatGeometry = s.vol.fs.toFatGeometry := he.geometry
      refine ⟨ho.inDir.visible, ho.inDir.notInFat, ?_, ho.inDir.room⟩
      rw [ho.dirSect, hgeom]
      exact hsect
    have hcount : whole ∧ r ≠ .frDiskErr → h'.vol.CountOk d :=
      fun hw => hrel.count (hs.count hw.1)
    obtain ⟨l'', hsound⟩ := hs.replace (f := some _) hleaves
      (fun hd hb => hs.broken hd (hrel.broken ho.owned.toChained hb)) hcount ⟨l', ho.holds hdir⟩
    exact ⟨_, hsound⟩
  -- the object stays closed
  have hclosed : (d.Reliable → ¬ h'.vol.Broken d) →
      (whole ∧ r ≠ .frDiskErr → h'.vol.CountOk d) → h'.fil.opened = false →
      ∃ chain', (s.setHandle i h').Sound d A (whole ∧ r ≠ .frDiskErr) chain' table := by
    intro hbroken hcount hc
    obtain ⟨l, hsound⟩ := hs.replace (f := none) hleaves hbroken hcount (.inl hc)
    rw [hnone] at hsound
    exact ⟨_, hsound⟩
  cases hcomes with
  | refused hno hvol hc =>
    obtain ⟨chain', hsound⟩ := hclosed (by rw [hvol]; exact hs.broken)
      (by rw [hvol]; exact fun hw => hs.count hw.1) hc
    exact ⟨chain', table, .refused hno hvol, hsound⟩
  | found hmode hkeep ho hview hrel hbyte =>
    have hbytes : bytesFrom (h'.byte d l) 0 n.toNat = bytesFrom (s.vol.byte d l) 0 n.toNat :=
      bytesFrom_congr fun p _ => hbyte _
    obtain ⟨chain', hsound⟩ := hopened l n ho hrel
    rw [hbytes] at hsound
    exact ⟨chain', _, .found hmode hkeep hview, hsound⟩
  | emptied hmode hnew ho hfile hrel =>
    obtain ⟨chain', hsound⟩ := hopened [] 0 ho hrel
    have hfree : ∀ c ∈ l, h'.vol.link d c = .free :=
      fun c hc => hrel.becomes.frees c hc (List.not_mem_nil)
    have hkeeps : ∀ c ∉ l, h'.vol.link d c = s.vol.link d c :=
      fun c hc => hrel.becomes.keeps c hc (List.not_mem_nil)
    exact ⟨chain', _, .emptied hmode hnew hfile.clust hfile.size hfree hkeeps, hsound⟩
  | failed hmode hd hc =>
    obtain ⟨chain', hsound⟩ := hclosed (fun h => absurd h hd) (fun hw => absurd rfl hw.2) hc
    exact ⟨chain', table, .failed hmode hd, hsound⟩

end More

/-- `FA_CREATE_ALWAYS | FA_WRITE`. -/
def createMode : OpenMode where
  read := false
  write := true
  createNew := false
  createAlways := true
  openAlways := false
  seekEnd := false

/-- The sample volume without open files. -/
def closedFileSys : FileSys Unit (UInt32 → Sector) where
  vol := sampleVolume
  fil _ := { sampleFil with opened := false }

theorem openFile_returns_sample :
    (Returns (onFile () (openFound ramDisk readMode 0)) closedFileSys fun r s' =>
      r = .frOk ∧ ∃ chain', s'.Sound ramDisk ∅ (True ∧ r ≠ .frDiskErr) chain'
        fun _ => some (readMode.file [0, 1, 2, 3, 4])) ∧
    Returns (onFile () (openFound ramDisk createMode 0)) closedFileSys fun r s' =>
      r = .frOk ∧ s'.vol.link ramDisk 2 = .free ∧
        ∃ chain', s'.Sound ramDisk ∅ (True ∧ r ≠ .frDiskErr) chain'
          fun _ => some (createMode.file []) := by
  have hnone : ∀ c : UInt32, c ∉ others ∅ (fun _ : Unit => []) (fun _ => none) () := by
    rintro c (hc | ⟨j, hj, -⟩)
    · exact hc
    · exact hj rfl
  have hfits := sampleFil_fits (hnone 2) (hnone 3)
  have hs : closedFileSys.Sound ramDisk ∅ True (fun _ => []) fun _ => none :=
    ⟨sampleGeometry_wellFormed, sampleGeometry_dir, fun _ => sampleVolume_sound.not_broken,
      fun _ => sampleVolume_sound.count, fun _ _ hno => absurd hno (by simp), fun _ _ => .inl rfl⟩
  have hv : closedFileSys.vol.HasFile ramDisk (others ∅ (fun _ : Unit => []) (fun _ => none) ())
      2 0 [2] 5 :=
    ⟨hfits.owned, by decide, by decide, sampleGeometry_dir, by decide, by decide, by decide,
      by decide⟩
  have htable : ∀ f : File, Function.update (fun _ : Unit => none) () (some f) = fun _ => some f :=
    fun f => funext fun _ => Function.update_self ..
  refine ⟨(openFile_returns hs rfl hv rfl).imp ?_, (openFile_returns hs rfl hv rfl).imp ?_⟩
  · rintro r s' ⟨chain', table', hopens, hsound⟩
    cases hopens with
    | found hmode hkeep hview =>
      have hdata : bytesFrom (closedFileSys.vol.byte ramDisk [2]) 0 (5 : UInt32).toNat =
          [0, 1, 2, 3, 4] := by decide
      rw [hdata, htable] at hsound
      exact ⟨rfl, chain', hsound⟩
    | emptied hmode hnew => exact absurd hnew (by decide)
    | refused hno hvol => exact absurd (by unfold OpenMode.Permits; decide) hno
    | failed hmode hd => exact absurd ramDisk_reliable hd
  · rintro r s' ⟨chain', table', hopens, hsound⟩
    cases hopens with
    | found hmode hkeep hview => exact absurd hkeep (by decide)
    | emptied hmode hnew hclust hsize hfree hkeeps =>
      rw [htable] at hsound
      exact ⟨rfl, hfree 2 (by simp), chain', hsound⟩
    | refused hno hvol => exact absurd (by unfold OpenMode.Permits; decide) hno
    | failed hmode hd => exact absurd ramDisk_reliable hd

end Gd32Firmware
