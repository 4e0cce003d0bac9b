import Gd32Firmware.FatVolume

/-!
# The entries of the FAT

`get_fat` and `put_fat` read and write one entry of the FAT through the window. `Volume.entry`
is the entry that is seen; `getFat_returns` and `putFat_returns` say that the one delivers it
and the other changes it and no other entry, in all three types of FAT. If the drive fails they
report it and, but for an entry of FAT12 of which the first byte may be written, nothing has
changed.
-/

namespace Gd32Firmware

open Program FatGeometry

variable {σ : Type} (d : Storage σ)

/-! ## The functions -/

/-- The answer of `get_fat` and `create_chain` after an error of the drive. -/
def diskError : UInt32 := 0xFFFFFFFF

def getFat (clst : UInt32) : Program (Volume σ) UInt32 := do
  let fs ← getFs
  if clst < 2 ∨ fs.nFatent ≤ clst then pure 1
  else match fs.fsType with
    | .fat12 => do
      let bc := clst + clst / 2
      if (← moveWindow d (fs.fatbase + bc / 512)) = .frOk then
        let b0 := (← getFs).win.at (bc % 512).toNat
        if (← moveWindow d (fs.fatbase + (bc + 1) / 512)) = .frOk then
          let b1 := (← getFs).win.at ((bc + 1) % 512).toNat
          pure (entry12 (clst &&& 1 = 1) b0 b1)
        else pure diskError
      else pure diskError
    | .fat16 => do
      if (← moveWindow d (fs.fatbase + clst / 256)) = .frOk then
        pure (ldWord (← getFs).win (clst * 2 % 512).toNat).toUInt32
      else pure diskError
    | .fat32 => do
      if (← moveWindow d (fs.fatbase + clst / 128)) = .frOk then
        pure (ldDword (← getFs).win (clst * 4 % 512).toNat &&& 0x0FFFFFFF)
      else pure diskError
    | .blank => pure 1

def putFat (clst val : UInt32) : Program (Volume σ) FResult := do
  let fs ← getFs
  if 2 ≤ clst ∧ clst < fs.nFatent then
    match fs.fsType with
    | .fat12 => do
      let bc := clst + clst / 2
      let res ← moveWindow d (fs.fatbase + bc / 512)
      if res = .frOk then
        editWin fun win => win.put (bc % 512).toNat
          (first12 (clst &&& 1 = 1) (win.at (bc % 512).toNat) val)
        let res ← moveWindow d (fs.fatbase + (bc + 1) / 512)
        if res = .frOk then
          editWin fun win => win.put ((bc + 1) % 512).toNat
            (second12 (clst &&& 1 = 1) (win.at ((bc + 1) % 512).toNat) val)
          pure res
        else pure res
      else pure res
    | .fat16 => do
      let res ← moveWindow d (fs.fatbase + clst / 256)
      if res = .frOk then
        editWin fun win => stWord win (clst * 2 % 512).toNat val.toUInt16
        pure res
      else pure res
    | .fat32 => do
      let res ← moveWindow d (fs.fatbase + clst / 128)
      if res = .frOk then
        editWin fun win => stDword win (clst * 4 % 512).toNat
          (dword32 (ldDword win (clst * 4 % 512).toNat) val)
        pure res
      else pure res
    | .blank => pure .frIntErr
  else pure .frIntErr

/-! ## The bytes of an entry -/

/-- The entry of a cluster in an image of the volume. -/
def FatGeometry.entry (g : FatGeometry) (image : UInt32 → Sector) (clst : UInt32) : UInt32 :=
  fatEntry g.fsType (g.fatBytes image) clst.toNat

/-- The entry of a cluster, as it is seen. -/
def Volume.entry (v : Volume σ) (clst : UInt32) : UInt32 :=
  v.fs.toFatGeometry.entry (v.view d) clst

theorem Sector.at_mod (p : Sector) (n k : ℕ) : p.at (n % 512 + k) = p.at (n + k) := by
  unfold Sector.at
  congr 1
  ext
  simp

theorem Sector.put_mod (p : Sector) (n k : ℕ) (b : UInt8) :
    p.put (n % 512 + k) b = p.put (n + k) b := by
  unfold Sector.put
  congr 1
  ext
  simp

@[simp] theorem Sector.at_mod_zero (p : Sector) (n : ℕ) : p.at (n % 512) = p.at n :=
  p.at_mod n 0

@[simp] theorem Sector.put_mod_zero (p : Sector) (n : ℕ) (b : UInt8) :
    p.put (n % 512) b = p.put n b :=
  p.put_mod n 0 b

theorem ldWord_mod (p : Sector) (n : ℕ) : ldWord p (n % 512) = ldWord p n := by
  rw [ldWord, ldWord, p.at_mod n 1, p.at_mod_zero]

theorem ldDword_mod (p : Sector) (n : ℕ) : ldDword p (n % 512) = ldDword p n := by
  rw [ldDword, ldDword, p.at_mod n 1, p.at_mod n 2, p.at_mod n 3, p.at_mod_zero]

theorem stWord_mod (p : Sector) (n : ℕ) (val : UInt16) :
    stWord p (n % 512) val = stWord p n val := by
  rw [stWord, stWord, Sector.put_mod _ n 1, p.put_mod_zero]

theorem stDword_mod (p : Sector) (n : ℕ) (val : UInt32) :
    stDword p (n % 512) val = stDword p n val := by
  rw [stDword, stDword, Sector.put_mod _ n 3, Sector.put_mod _ n 2, Sector.put_mod _ n 1,
    p.put_mod_zero]

section Entry

variable {d} {v : Volume σ} {g : FatGeometry} {clst : UInt32}

/-- The last byte of an entry, counted from its first one. -/
def FsType.width : FsType → ℕ
  | .fat32 => 3
  | _ => 1

/-- The bytes of an entry are bytes of the FAT. -/
theorem offset_lt (hg : g.WellFormed) (hclst : g.IsCluster clst) :
    g.fsType.offset clst.toNat + g.fsType.width < g.fsize.toNat * 512 := by
  have hc := (isCluster_toNat.1 hclst).2
  refine lt_of_lt_of_le ?_ hg.table
  have ht := hg.mounted
  cases h : g.fsType with
  | blank => exact absurd h ht
  | fat12 =>
    obtain ⟨m, hm⟩ : ∃ m, g.nFatent.toNat = 2 * m ∨ g.nFatent.toNat = 2 * m + 1 :=
      ⟨g.nFatent.toNat / 2, by omega⟩
    simp only [FsType.offset, FsType.tableSize, FsType.width]
    omega
  | fat16 =>
    simp only [FsType.offset, FsType.tableSize, FsType.width]
    omega
  | fat32 =>
    simp only [FsType.offset, FsType.tableSize, FsType.width]
    omega

/-- The two bytes of a word are in one sector. -/
theorem fatSect_add {n k : ℕ} (h : n % 512 + k < 512) : g.fatSect (n + k) = g.fatSect n := by
  rw [fatSect, fatSect, show (n + k) / 512 = n / 512 by omega]

/-- A sector of the FAT as the code computes it. -/
theorem fatSect_eq {n : ℕ} {i : UInt32} (h : i.toNat = n / 512) : g.fatbase + i = g.fatSect n := by
  rw [fatSect, ← h, UInt32.ofNat_toNat]

/-- The FAT has been read : nothing that is seen has changed, and the window may have moved to
the FAT. -/
structure Volume.Reads (d : Storage σ) (v v' : Volume σ) : Prop
    extends Volume.Shows d v v' (v.view d) where
  moves : v.fs.Moves v.fs.winsect v'.fs.winsect

theorem Volume.Reads.refl (hc : v.Coherent d) : v.Reads d v :=
  ⟨Volume.Same.refl hc, .inl rfl⟩

theorem Volume.Reads.trans {v' v'' : Volume σ} (h : v.Reads d v') (h' : v'.Reads d v'') :
    v.Reads d v'' := by
  refine ⟨h.toShows.then_same h'.toShows, h.moves.trans ?_⟩
  rw [← h.geometry]
  exact h'.moves

/-- Moving the window to the sector of a byte of the FAT. -/
theorem moveWindow_fat (hg : v.fs.WellFormed) (hc : v.Coherent d) {n : ℕ}
    (hn : n < v.fs.fsize.toNat * 512) :
    Returns (moveWindow d (v.fs.fatSect n)) v fun r v' =>
      v.Reads d v' ∧
        ((r = .frOk ∧ v'.fs.winsect = v.fs.fatSect n ∧ v'.fs.win = v.view d (v.fs.fatSect n)) ∨
          (r = .frDiskErr ∧ ¬ d.Reliable)) := by
  refine (moveWindow_returns hc _).imp ?_
  have hin := fatSect_inFat hg hn
  rintro r v' ⟨hsame, ⟨rfl, hsect, hwin⟩ | ⟨rfl, hd, hstay⟩⟩
  · exact ⟨⟨hsame, .inr (.inr (hsect ▸ hin))⟩, .inl ⟨rfl, hsect, hwin (visible_fat hg hin)⟩⟩
  · exact ⟨⟨hsame, hstay.imp_right .inl⟩, .inr ⟨rfl, hd⟩⟩

theorem lastBit_eq : decide (clst &&& 1 = 1) = decide (clst.toNat % 2 = 1) := by
  rw [decide_eq_decide, ← UInt32.toNat_inj, UInt32.toNat_and]
  simp [Nat.and_one_is_mod]

/-- The offset of an entry of FAT12, as the code computes it. -/
theorem toNat_bc (hlt : clst.toNat < 0x0FFFFFF8) :
    (clst + clst / 2).toNat = clst.toNat + clst.toNat / 2 ∧
      (clst + clst / 2 + 1).toNat = clst.toNat + clst.toNat / 2 + 1 := by
  have hbc : (clst + clst / 2).toNat = clst.toNat + clst.toNat / 2 := by
    rw [UInt32.toNat_add, UInt32.toNat_div]
    simp only [UInt32.reduceToNat]
    omega
  refine ⟨hbc, ?_⟩
  rw [UInt32.toNat_add, hbc]
  simp only [UInt32.reduceToNat]
  omega

theorem toNat_div_512 {x : UInt32} {n : ℕ} (h : x.toNat = n) : (x / 512).toNat = n / 512 := by
  rw [UInt32.toNat_div, h]
  rfl

theorem toNat_mod_512 {x : UInt32} {n : ℕ} (h : x.toNat = n) : (x % 512).toNat = n % 512 := by
  rw [UInt32.toNat_mod, h]
  rfl

theorem toNat_mul_of_lt {x k : UInt32} (h : x.toNat * k.toNat < 2 ^ 32) :
    (x * k).toNat = x.toNat * k.toNat := by
  rw [UInt32.toNat_mul]
  exact Nat.mod_eq_of_lt h

/-- What `get_fat` delivers : the entry that is seen, or the number that says that the drive
failed. -/
theorem getFat_returns (hg : v.fs.WellFormed) (hc : v.Coherent d) (hclst : v.fs.IsCluster clst) :
    Returns (getFat d clst) v fun val v' =>
      v.Reads d v' ∧ (val = v.entry d clst ∨ (val = diskError ∧ ¬ d.Reliable)) := by
  have hrange : ¬ (clst < 2 ∨ v.fs.nFatent ≤ clst) := by
    rintro (h | h)
    · exact absurd hclst.1 (UInt32.not_le.2 h)
    · exact absurd hclst.2 (UInt32.not_lt.2 h)
  have hofs := offset_lt hg hclst
  have hcl := (isCluster_toNat.1 hclst).2.trans hg.nFatent_lt
  unfold getFat
  rw [returns_bind, returns_getFs, if_neg hrange, Volume.entry, FatGeometry.entry]
  cases ht : v.fs.fsType with
  | blank => exact absurd ht hg.mounted
  | fat12 =>
    simp only [ht, FsType.offset, FsType.width] at hofs
    obtain ⟨hbc, hbc1⟩ := toNat_bc hcl
    have hn : clst.toNat + clst.toNat / 2 < v.fs.fsize.toNat * 512 := by omega
    simp only [fatSect_eq (toNat_div_512 hbc), fatSect_eq (toNat_div_512 hbc1),
      toNat_mod_512 hbc, toNat_mod_512 hbc1, Sector.at_mod_zero]
    refine Returns.bind (moveWindow_fat hg hc hn) ?_
    rintro r v₁ ⟨hsame, ⟨rfl, -, hwin⟩ | ⟨rfl, hd⟩⟩
    swap
    · exact ⟨hsame, .inr ⟨rfl, hd⟩⟩
    rw [if_pos rfl, returns_bind, returns_getFs, ← hsame.geometry]
    rw [← hsame.geometry] at hg hofs
    refine Returns.bind (moveWindow_fat hg hsame.coherent hofs) ?_
    rintro r v₂ ⟨hsame', ⟨rfl, -, hwin'⟩ | ⟨rfl, hd⟩⟩
    swap
    · exact ⟨hsame.trans hsame', .inr ⟨rfl, hd⟩⟩
    refine ⟨hsame.trans hsame', .inl ?_⟩
    rw [hsame.geometry] at hofs hwin'
    rw [hwin, hwin', hsame.view, lastBit_eq]
    simp only [fatEntry, FsType.offset, hsame.geometry, fatBytes_eq hn rfl, fatBytes_eq hofs rfl]
  | fat16 =>
    simp only [ht, FsType.offset, FsType.width] at hofs
    have hn : clst.toNat * 2 < v.fs.fsize.toNat * 512 := by omega
    have hofs' : (clst * 2).toNat = clst.toNat * 2 :=
      toNat_mul_of_lt (k := 2) (by simp only [UInt32.reduceToNat]; omega)
    have hsect : (clst / 256).toNat = clst.toNat * 2 / 512 := by
      rw [UInt32.toNat_div]
      simp only [UInt32.reduceToNat]
      omega
    simp only [fatSect_eq hsect, toNat_mod_512 hofs', ldWord_mod]
    refine Returns.bind (moveWindow_fat hg hc hn) ?_
    rintro r v₁ ⟨hsame, ⟨rfl, -, hwin⟩ | ⟨rfl, hd⟩⟩
    swap
    · exact ⟨hsame, .inr ⟨rfl, hd⟩⟩
    refine ⟨hsame, .inl ?_⟩
    simp only [hwin, fatEntry, FsType.offset, ldWord, fatBytes_eq hn rfl,
      fatBytes_eq hofs (fatSect_add (by omega))]
  | fat32 =>
    simp only [ht, FsType.offset, FsType.width] at hofs
    have hn : clst.toNat * 4 < v.fs.fsize.toNat * 512 := by omega
    have hofs' : (clst * 4).toNat = clst.toNat * 4 :=
      toNat_mul_of_lt (k := 4) (by simp only [UInt32.reduceToNat]; omega)
    have hsect : (clst / 128).toNat = clst.toNat * 4 / 512 := by
      rw [UInt32.toNat_div]
      simp only [UInt32.reduceToNat]
      omega
    simp only [fatSect_eq hsect, toNat_mod_512 hofs', ldDword_mod]
    refine Returns.bind (moveWindow_fat hg hc hn) ?_
    rintro r v₁ ⟨hsame, ⟨rfl, -, hwin⟩ | ⟨rfl, hd⟩⟩
    swap
    · exact ⟨hsame, .inr ⟨rfl, hd⟩⟩
    refine ⟨hsame, .inl ?_⟩
    have hbyte : ∀ k < 4, v.fs.fatBytes (v.view d) (clst.toNat * 4 + k) =
        (v.view d (v.fs.fatSect (clst.toNat * 4))).at (clst.toNat * 4 + k) :=
      fun k hk => fatBytes_eq (by omega) (fatSect_add (by omega))
    simp only [hwin, fatEntry, FsType.offset, ldDword, hbyte 1 (by decide), hbyte 2 (by decide),
      hbyte 3 (by decide), fatBytes_eq hn rfl]

/-- What `put_fat` leaves when it reports `r` : `image` is seen, which differs from what was seen
before in the FAT only, and there in the one entry only. -/
structure Volume.Put (d : Storage σ) (v v' : Volume σ) (clst val : UInt32) (r : FResult)
    (image : UInt32 → Sector) : Prop where
  shows : v.Shows d v' image
  moves : v.fs.Moves v.fs.winsect v'.fs.winsect
  frame : ∀ s, ¬ v.fs.InFat s → image s = v.view d s
  result : (r = .frOk ∧ v.fs.fatBytes image =
      fatStore v.fs.fsType (v.fs.fatBytes (v.view d)) clst.toNat val) ∨
    (r = .frDiskErr ∧ ¬ d.Reliable ∧ (v.fs.fsType ≠ .fat12 → image = v.view d) ∧
      ∀ c, c ≠ clst → v.fs.toFatGeometry.entry image c = v.entry d c)

/-- Writing to the sector in the window, where it is one of the FAT. -/
theorem editWin_fat {v' : Volume σ} {image : UInt32 → Sector} {n : ℕ} (hg : v.fs.WellFormed)
    (h : v.Shows d v' image) (hn : n < v.fs.fsize.toNat * 512)
    (hsect : v'.fs.winsect = v.fs.fatSect n) (hwin : v'.fs.win = image (v.fs.fatSect n))
    (f : Sector → Sector) :
    Returns (editWin f) v' fun _ v'' =>
      v.Shows d v'' (Function.update image (v.fs.fatSect n) (f (image (v.fs.fatSect n)))) ∧
        v.fs.Moves v.fs.winsect v''.fs.winsect := by
  have hvis : v.fs.Visible v'.fs.winsect := by
    rw [hsect]
    exact visible_fat hg (fatSect_inFat hg hn)
  refine (editWin_returns f h hvis).imp fun _ v'' h' => ?_
  have hin : v.fs.InFat v''.fs.winsect := by
    rw [h'.2.1, hsect]
    exact fatSect_inFat hg hn
  rw [← hwin, ← hsect]
  exact ⟨h'.1, .inr (.inr hin)⟩

/-- A sector of the FAT is changed. -/
theorem frame_update {image : UInt32 → Sector} {n : ℕ} {p : Sector} (hg : g.WellFormed)
    (hn : n < g.fsize.toNat * 512) {s : UInt32} (hs : ¬ g.InFat s) :
    Function.update image (g.fatSect n) p s = image s := by
  refine Function.update_of_ne ?_ _ _
  rintro rfl
  exact hs (fatSect_inFat hg hn)

/-- Changing one byte of the FAT in the window. -/
theorem editWin_put {v' : Volume σ} {image : UInt32 → Sector} {n : ℕ} (hg : v.fs.WellFormed)
    (h : v.Shows d v' image) (hn : n < v.fs.fsize.toNat * 512)
    (hsect : v'.fs.winsect = v.fs.fatSect n) (hwin : v'.fs.win = image (v.fs.fatSect n))
    (f : UInt8 → UInt8) :
    Returns (editWin fun win => win.put n (f (win.at n))) v' fun _ v'' =>
      ∃ image', v.Shows d v'' image' ∧ v.fs.Moves v.fs.winsect v''.fs.winsect ∧
        (∀ s, ¬ v.fs.InFat s → image' s = image s) ∧
        v.fs.fatBytes image' =
          Function.update (v.fs.fatBytes image) n (f (v.fs.fatBytes image n)) := by
  refine (editWin_fat hg h hn hsect hwin _).imp fun _ v'' h' =>
    ⟨_, h'.1, h'.2, fun s hs => frame_update hg hn hs, ?_⟩
  rw [fatBytes_put hg image _ hn rfl, Function.update_eq_self, fatBytes_eq hn rfl]

/-- What `put_fat` does. -/
theorem putFat_returns (hg : v.fs.WellFormed) (hc : v.Coherent d) (hclst : v.fs.IsCluster clst)
    (val : UInt32) :
    Returns (putFat d clst val) v fun r v' => ∃ image, v.Put d v' clst val r image := by
  have hofs := offset_lt hg hclst
  have hcl := (isCluster_toNat.1 hclst).2.trans hg.nFatent_lt
  unfold putFat
  rw [returns_bind, returns_getFs, if_pos (show 2 ≤ clst ∧ clst < v.fs.nFatent from hclst)]
  cases ht : v.fs.fsType with
  | blank => exact absurd ht hg.mounted
  | fat12 =>
    simp only [ht, FsType.offset, FsType.width] at hofs
    obtain ⟨hbc, hbc1⟩ := toNat_bc hcl
    have hn : clst.toNat + clst.toNat / 2 < v.fs.fsize.toNat * 512 := by omega
    simp only [fatSect_eq (toNat_div_512 hbc), fatSect_eq (toNat_div_512 hbc1),
      toNat_mod_512 hbc, toNat_mod_512 hbc1, Sector.at_mod_zero, Sector.put_mod_zero]
    refine Returns.bind (moveWindow_fat hg hc hn) ?_
    rintro r v₁ ⟨hsame, ⟨rfl, hsect, hwin⟩ | ⟨rfl, hd⟩⟩
    swap
    · exact ⟨_, hsame.toShows, hsame.moves, fun _ _ => rfl,
        .inr ⟨rfl, hd, fun _ => rfl, fun _ _ => rfl⟩⟩
    refine Returns.bind (editWin_put hg hsame.toShows hn hsect hwin
      fun b => first12 (clst &&& 1 = 1) b val) ?_
    rintro - v₂ ⟨image, hshows, hmoves, hframe, hbytes⟩
    have hg₂ := hg
    rw [← hshows.geometry] at hg₂ ⊢
    refine Returns.bind (moveWindow_fat hg₂ hshows.coherent
      (by rw [hshows.geometry]; exact hofs)) ?_
    rintro r v₃ ⟨hsame', ⟨rfl, hsect', hwin'⟩ | ⟨rfl, hd⟩⟩
    swap
    · have hmoves' := hsame'.moves
      rw [hshows.geometry] at hmoves'
      refine ⟨_, hshows.then_same hsame'.toShows, hmoves.trans hmoves', hframe,
        .inr ⟨rfl, hd, fun h => absurd ht h, fun c hne => ?_⟩⟩
      have hne' : c.toNat ≠ clst.toNat := fun h => hne (UInt32.toNat_inj.1 h)
      rw [FatGeometry.entry, hbytes, lastBit_eq, Volume.entry, FatGeometry.entry, ht]
      exact fatEntry_first12 _ hne' val
    rw [hshows.geometry] at hsect' hwin'
    rw [hshows.view] at hwin'
    refine Returns.bind (editWin_put hg (hshows.then_same hsame'.toShows) hofs hsect' hwin'
      fun b => second12 (clst &&& 1 = 1) b val) ?_
    rintro - v₄ ⟨image', hshows', hmoves', hframe', hbytes'⟩
    refine ⟨image', hshows', hmoves', fun s hs => (hframe' s hs).trans (hframe s hs),
      .inl ⟨rfl, ?_⟩⟩
    rw [hbytes', hbytes, Function.update_of_ne (Nat.succ_ne_self _), lastBit_eq, ht]
    rfl
  | fat16 =>
    simp only [ht, FsType.offset, FsType.width] at hofs
    have hn : clst.toNat * 2 < v.fs.fsize.toNat * 512 := by omega
    have hofs' : (clst * 2).toNat = clst.toNat * 2 :=
      toNat_mul_of_lt (k := 2) (by simp only [UInt32.reduceToNat]; omega)
    have hsect : (clst / 256).toNat = clst.toNat * 2 / 512 := by
      rw [UInt32.toNat_div]
      simp only [UInt32.reduceToNat]
      omega
    simp only [fatSect_eq hsect, toNat_mod_512 hofs', stWord_mod]
    refine Returns.bind (moveWindow_fat hg hc hn) ?_
    rintro r v₁ ⟨hsame, ⟨rfl, hwinsect, hwin⟩ | ⟨rfl, hd⟩⟩
    swap
    · exact ⟨_, hsame.toShows, hsame.moves, fun _ _ => rfl,
        .inr ⟨rfl, hd, fun _ => rfl, fun _ _ => rfl⟩⟩
    refine Returns.bind (editWin_fat hg hsame.toShows hn hwinsect hwin _) fun _ v₂ hshows => ?_
    refine ⟨_, hshows.1, hshows.2, fun s hs => frame_update hg hn hs, .inl ⟨rfl, ?_⟩⟩
    rw [stWord, fatBytes_put hg _ _ hofs (fatSect_add (by omega)), fatBytes_put hg _ _ hn rfl,
      Function.update_eq_self, ht]
    rfl
  | fat32 =>
    simp only [ht, FsType.offset, FsType.width] at hofs
    have hn : clst.toNat * 4 < v.fs.fsize.toNat * 512 := by omega
    have hofs' : (clst * 4).toNat = clst.toNat * 4 :=
      toNat_mul_of_lt (k := 4) (by simp only [UInt32.reduceToNat]; omega)
    have hsect : (clst / 128).toNat = clst.toNat * 4 / 512 := by
      rw [UInt32.toNat_div]
      simp only [UInt32.reduceToNat]
      omega
    simp only [fatSect_eq hsect, toNat_mod_512 hofs', stDword_mod, ldDword_mod]
    refine Returns.bind (moveWindow_fat hg hc hn) ?_
    rintro r v₁ ⟨hsame, ⟨rfl, hwinsect, hwin⟩ | ⟨rfl, hd⟩⟩
    swap
    · exact ⟨_, hsame.toShows, hsame.moves, fun _ _ => rfl,
        .inr ⟨rfl, hd, fun _ => rfl, fun _ _ => rfl⟩⟩
    refine Returns.bind (editWin_fat hg hsame.toShows hn hwinsect hwin _) fun _ v₂ hshows => ?_
    refine ⟨_, hshows.1, hshows.2, fun s hs => frame_update hg hn hs, .inl ⟨rfl, ?_⟩⟩
    have hbyte : ∀ k < 4, v.fs.fatBytes (v.view d) (clst.toNat * 4 + k) =
        (v.view d (v.fs.fatSect (clst.toNat * 4))).at (clst.toNat * 4 + k) :=
      fun k hk => fatBytes_eq (by omega) (fatSect_add (by omega))
    rw [stDword, fatBytes_put hg _ _ hofs (fatSect_add (by omega)),
      fatBytes_put hg _ _ (by omega) (fatSect_add (by omega)),
      fatBytes_put hg _ _ (by omega) (fatSect_add (by omega)), fatBytes_put hg _ _ hn rfl,
      Function.update_eq_self, ht]
    simp only [fatStore, FsType.offset, ldDword, hbyte 1 (by decide), hbyte 2 (by decide),
      hbyte 3 (by decide), fatBytes_eq hn rfl]

end Entry

end Gd32Firmware
