import Gd32Firmware.FatTable

/-!
# The layout of a FAT volume

The areas of a volume, as sectors : the first FAT, and the clusters of the data area
(`clst2sect`). `FatGeometry.WellFormed` says that they fit and do not overlap; what it says of
the sectors is that those of the FAT and of the clusters are read (`visible_fat`,
`visible_data`) and that no sector is two of them (`data_inj`, `data_not_inFat`).

The second FAT is a copy of the first one that is never read. `windowMachine_mirrored` says that it
stays one over every run of accesses to other sectors through the window, as long as the drive
does not fail.
-/

namespace Gd32Firmware

/-! ## Well-formed volumes -/

/-- The most entries that a FAT of the type has, `MAX_FAT12`, `MAX_FAT16` and `MAX_FAT32` and
two. -/
def FsType.maxEntries : FsType → ℕ
  | .blank => 0
  | .fat12 => 0xFF5 + 2
  | .fat16 => 0xFFF5 + 2
  | .fat32 => 0x0FFFFFF5 + 2

/-- The bytes of a FAT with `n` entries. -/
def FsType.tableSize : FsType → ℕ → ℕ
  | .blank, _ => 0
  | .fat12, n => n * 3 / 2 + n % 2
  | .fat16, n => n * 2
  | .fat32, n => n * 4

/-- The areas of the volume fit and follow each other, up to the last sector but one of a
drive. -/
structure FatGeometry.WellFormed (g : FatGeometry) : Prop where
  mounted : g.fsType ≠ .blank
  nFats : g.nFats = 1 ∨ g.nFats = 2
  csize : ∃ k ≤ 7, g.csize.toNat = 2 ^ k
  minEntries : 3 ≤ g.nFatent.toNat
  maxEntries : g.nFatent.toNat ≤ g.fsType.maxEntries
  table : g.fsType.tableSize g.nFatent.toNat ≤ g.fsize.toNat * 512
  reserved : g.volbase.toNat + (if g.fsType = .fat32 then 2 else 1) ≤ g.fatbase.toNat
  fats : g.fatbase.toNat + g.nFats.toNat * g.fsize.toNat ≤ g.database.toNat
  data : g.database.toNat + g.csize.toNat * (g.nFatent.toNat - 2) < 2 ^ 32

/-- A sector of the first FAT. -/
def FatGeometry.InFat (g : FatGeometry) (s : UInt32) : Prop :=
  s - g.fatbase < g.fsize

instance (g : FatGeometry) (s : UInt32) : Decidable (g.InFat s) :=
  inferInstanceAs (Decidable (_ < _))

/-- Accesses to the FAT take the window to a sector of it, if they move it. -/
def FatGeometry.Moves (g : FatGeometry) (sect sect' : UInt32) : Prop :=
  sect' = sect ∨ sect' = noSector ∨ g.InFat sect'

/-- The number of a cluster of the volume. -/
def FatGeometry.IsCluster (g : FatGeometry) (c : UInt32) : Prop :=
  2 ≤ c ∧ c < g.nFatent

instance (g : FatGeometry) (c : UInt32) : Decidable (g.IsCluster c) :=
  inferInstanceAs (Decidable (_ ∧ _))

/-- The first sector of a cluster, or 0 if there is no such cluster. -/
def clst2sect (g : FatGeometry) (clst : UInt32) : UInt32 :=
  if clst - 2 ≥ g.nFatent - 2 then 0
  else g.database + g.csize.toUInt32 * (clst - 2)

namespace FatGeometry

variable {g : FatGeometry} {s c c' k k' : UInt32}

theorem Moves.trans {s₁ s₂ s₃ : UInt32} (h : g.Moves s₁ s₂) (h' : g.Moves s₂ s₃) :
    g.Moves s₁ s₃ := by
  obtain rfl | hother := h'
  · exact h
  · exact .inr hother

theorem sampleGeometry_wellFormed : sampleGeometry.WellFormed where
  mounted := by decide
  nFats := by decide
  csize := ⟨0, by decide, by decide⟩
  minEntries := by decide
  maxEntries := by decide
  table := by decide
  reserved := by decide
  fats := by decide
  data := by decide

theorem WellFormed.nFatent_lt (hg : g.WellFormed) : g.nFatent.toNat < 0x0FFFFFF8 := by
  have h := hg.maxEntries
  cases ht : g.fsType <;> rw [ht] at h <;> simp only [FsType.maxEntries] at h <;> omega

theorem WellFormed.csize_pos (hg : g.WellFormed) : 0 < g.csize.toNat := by
  obtain ⟨k, -, hk⟩ := hg.csize
  rw [hk]
  exact Nat.two_pow_pos k

theorem WellFormed.csize_le (hg : g.WellFormed) : g.csize.toNat ≤ 128 := by
  obtain ⟨k, hk, heq⟩ := hg.csize
  rw [heq]
  exact Nat.pow_le_pow_right (by decide) hk

theorem WellFormed.nFats_toNat (hg : g.WellFormed) :
    1 ≤ g.nFats.toNat ∧ (g.nFats = 2 → g.nFats.toNat = 2) := by
  refine ⟨?_, fun h => by rw [h]; rfl⟩
  obtain h | h := hg.nFats <;> rw [h] <;> decide

theorem isCluster_toNat : g.IsCluster c ↔ 2 ≤ c.toNat ∧ c.toNat < g.nFatent.toNat := by
  rw [IsCluster, UInt32.le_iff_toNat_le, UInt32.lt_iff_toNat_lt]
  rfl

/-- The room of the FATs, in sectors. -/
theorem WellFormed.fats_le (hg : g.WellFormed) :
    g.fatbase.toNat + g.fsize.toNat ≤ g.database.toNat ∧
      (g.nFats = 2 → g.fatbase.toNat + 2 * g.fsize.toNat ≤ g.database.toNat) := by
  have hfats := hg.fats
  have hle : g.fsize.toNat ≤ g.nFats.toNat * g.fsize.toNat :=
    Nat.le_mul_of_pos_left _ hg.nFats_toNat.1
  refine ⟨by omega, fun h => ?_⟩
  rw [hg.nFats_toNat.2 h] at hfats
  exact hfats

theorem inFat_toNat (hg : g.WellFormed) :
    g.InFat s ↔ g.fatbase.toNat ≤ s.toNat ∧ s.toNat < g.fatbase.toNat + g.fsize.toNat := by
  have hs := s.toNat_lt
  have hf := g.fatbase.toNat_lt
  have hd := g.database.toNat_lt
  have hle := hg.fats_le.1
  rw [InFat, UInt32.lt_iff_toNat_lt, UInt32.toNat_sub]
  omega

theorem inSecondFat_toNat (hg : g.WellFormed) (h : g.InSecondFat s) :
    g.fatbase.toNat + g.fsize.toNat ≤ s.toNat ∧ s.toNat < g.database.toNat := by
  obtain ⟨hn, h⟩ := h
  have hs := s.toNat_lt
  have hd := g.database.toNat_lt
  have hle := hg.fats_le.2 hn
  rw [UInt32.lt_iff_toNat_lt, UInt32.toNat_sub, UInt32.toNat_sub] at h
  omega

/-- A sector between the reserved ones and the second FAT is read, and so is one behind it. -/
theorem visible_of_toNat (hg : g.WellFormed) (hres : g.fatbase.toNat ≤ s.toNat)
    (hfat : s.toNat < g.fatbase.toNat + g.fsize.toNat ∨ g.database.toNat ≤ s.toNat)
    (hlast : s.toNat < 0xFFFFFFFF) : g.Visible s := by
  refine ⟨?_, ?_⟩
  · rintro (h | ⟨ht, rfl⟩)
    · have := inSecondFat_toNat hg h
      omega
    · have hr := hg.reserved
      rw [if_pos ht] at hr
      have hv := g.volbase.toNat_lt
      have hf := g.fatbase.toNat_lt
      rw [UInt32.toNat_add, UInt32.toNat_one] at hres
      omega
  · rintro rfl
    exact absurd hlast (by decide)

theorem visible_fat (hg : g.WellFormed) (hs : g.InFat s) : g.Visible s := by
  rw [inFat_toNat hg] at hs
  have hle := hg.fats_le.1
  have hd := hg.data
  have hmin := hg.minEntries
  have hpos := Nat.mul_pos hg.csize_pos (show 0 < g.nFatent.toNat - 2 by omega)
  exact visible_of_toNat hg hs.1 (.inl hs.2) (by omega)

/-- The sector `k` of a cluster. -/
theorem data_toNat (hg : g.WellFormed) (hc : g.IsCluster c) (hk : k.toNat < g.csize.toNat) :
    (clst2sect g c + k).toNat =
      g.database.toNat + (g.csize.toNat * (c.toNat - 2) + k.toNat) := by
  rw [isCluster_toNat] at hc
  have hn := hg.nFatent_lt
  have hd := hg.data
  have hc2 : (c - 2).toNat = c.toNat - 2 := by
    rw [UInt32.toNat_sub]
    simp only [UInt32.reduceToNat]
    omega
  have hn2 : (g.nFatent - 2).toNat = g.nFatent.toNat - 2 := by
    have := g.nFatent.toNat_lt
    rw [UInt32.toNat_sub]
    simp only [UInt32.reduceToNat]
    omega
  have hlt : g.csize.toNat * (c.toNat - 2) + g.csize.toNat ≤
      g.csize.toNat * (g.nFatent.toNat - 2) := by
    rw [← Nat.mul_succ]
    exact Nat.mul_le_mul_left _ (by omega)
  have hvalid : ¬ c - 2 ≥ g.nFatent - 2 := by
    rw [ge_iff_le, UInt32.le_iff_toNat_le, hc2, hn2]
    omega
  rw [clst2sect, if_neg hvalid, UInt32.toNat_add, UInt32.toNat_add, UInt32.toNat_mul, hc2,
    UInt16.toNat_toUInt32]
  omega

/-- What is known of the place of a sector of the data area. -/
theorem data_bounds (hg : g.WellFormed) (hc : g.IsCluster c) (hk : k.toNat < g.csize.toNat) :
    g.database.toNat ≤ (clst2sect g c + k).toNat ∧ (clst2sect g c + k).toNat < 0xFFFFFFFF := by
  have hd := hg.data
  have hlt : g.csize.toNat * (c.toNat - 2) + g.csize.toNat ≤
      g.csize.toNat * (g.nFatent.toNat - 2) := by
    rw [← Nat.mul_succ]
    exact Nat.mul_le_mul_left _ (by have := isCluster_toNat.1 hc; omega)
  rw [data_toNat hg hc hk]
  omega

theorem visible_data (hg : g.WellFormed) (hc : g.IsCluster c) (hk : k.toNat < g.csize.toNat) :
    g.Visible (clst2sect g c + k) := by
  have h := data_bounds hg hc hk
  have hle := hg.fats_le.1
  exact visible_of_toNat hg (by omega) (.inr h.1) h.2

theorem data_not_inFat (hg : g.WellFormed) (hc : g.IsCluster c) (hk : k.toNat < g.csize.toNat) :
    ¬ g.InFat (clst2sect g c + k) := by
  have h := data_bounds hg hc hk
  have hle := hg.fats_le.1
  rw [inFat_toNat hg]
  omega

/-- No sector belongs to two clusters, or twice to one. -/
theorem data_inj (hg : g.WellFormed) (hc : g.IsCluster c) (hc' : g.IsCluster c')
    (hk : k.toNat < g.csize.toNat) (hk' : k'.toNat < g.csize.toNat)
    (heq : clst2sect g c + k = clst2sect g c' + k') : c = c' ∧ k = k' := by
  have h := congrArg UInt32.toNat heq
  rw [data_toNat hg hc hk, data_toNat hg hc' hk', Nat.add_left_cancel_iff] at h
  rw [isCluster_toNat] at hc hc'
  have hdiv := congrArg (· / g.csize.toNat) h
  have hmod := congrArg (· % g.csize.toNat) h
  simp only [Nat.mul_add_div hg.csize_pos, Nat.div_eq_of_lt hk, Nat.div_eq_of_lt hk',
    Nat.mul_add_mod, Nat.mod_eq_of_lt hk, Nat.mod_eq_of_lt hk'] at hdiv hmod
  exact ⟨UInt32.toNat_inj.1 (by omega), UInt32.toNat_inj.1 hmod⟩

/-- The first sector of a cluster is not 0, which is the answer for other numbers. -/
theorem clst2sect_ne_zero (hg : g.WellFormed) (hc : g.IsCluster c) : clst2sect g c ≠ 0 := by
  have h := data_bounds hg hc (k := 0) hg.csize_pos
  have hr := hg.reserved
  have hle := hg.fats_le.1
  intro heq
  rw [heq] at h
  simp only [UInt32.add_zero, UInt32.toNat_zero] at h
  split_ifs at hr <;> omega

/-! ## The bytes of the FAT -/

/-- The sector of the FAT with its byte `n`. -/
def fatSect (g : FatGeometry) (n : ℕ) : UInt32 :=
  g.fatbase + UInt32.ofNat (n / 512)

/-- The bytes of the FAT in an image of the volume. -/
def fatBytes (g : FatGeometry) (image : UInt32 → Sector) (n : ℕ) : UInt8 :=
  if n < g.fsize.toNat * 512 then (image (g.fatSect n)).at n else 0

theorem fatSect_toNat (hg : g.WellFormed) {n : ℕ} (hn : n < g.fsize.toNat * 512) :
    (g.fatSect n).toNat = g.fatbase.toNat + n / 512 := by
  have hd := g.database.toNat_lt
  have hle := hg.fats_le.1
  rw [fatSect, UInt32.toNat_add, UInt32.toNat_ofNat']
  omega

theorem fatSect_inFat (hg : g.WellFormed) {n : ℕ} (hn : n < g.fsize.toNat * 512) :
    g.InFat (g.fatSect n) := by
  rw [inFat_toNat hg, fatSect_toNat hg hn]
  omega

/-- A byte of the FAT in its sector. -/
theorem fatBytes_eq {image : UInt32 → Sector} {n : ℕ} (hn : n < g.fsize.toNat * 512)
    (hs : g.fatSect n = s) : g.fatBytes image n = (image s).at n := by
  rw [fatBytes, if_pos hn, hs]

/-- Writing a byte of the FAT in its sector. -/
theorem fatBytes_put (hg : g.WellFormed) (image : UInt32 → Sector) (p : Sector) {n : ℕ}
    (hn : n < g.fsize.toNat * 512) (hs : g.fatSect n = s) (b : UInt8) :
    g.fatBytes (Function.update image s (p.put n b)) =
      Function.update (g.fatBytes (Function.update image s p)) n b := by
  subst hs
  funext m
  by_cases hm : m < g.fsize.toNat * 512
  · by_cases hsect : g.fatSect m = g.fatSect n
    · have hq := congrArg UInt32.toNat hsect
      rw [fatSect_toNat hg hm, fatSect_toNat hg hn] at hq
      by_cases heq : m = n
      · subst heq
        simp [fatBytes, hm, Sector.at, Sector.put]
      · have hofs : Fin.ofNat 512 m ≠ Fin.ofNat 512 n := by
          intro h
          have hr := congrArg Fin.val h
          simp only [Fin.val_ofNat] at hr
          omega
        rw [Function.update_of_ne heq, fatBytes_eq hm hsect, fatBytes_eq hm hsect,
          Function.update_self, Function.update_self]
        exact Function.update_of_ne hofs _ _
    · have heq : m ≠ n := fun h => hsect (by rw [h])
      simp [fatBytes, hm, hsect, heq]
  · have heq : m ≠ n := fun h => hm (by rwa [h])
    simp [fatBytes, hm, heq]

/-- The bytes of the FAT are in its sectors. -/
theorem fatBytes_congr (hg : g.WellFormed) {image image' : UInt32 → Sector}
    (h : ∀ s, g.InFat s → image' s = image s) : g.fatBytes image' = g.fatBytes image := by
  funext n
  by_cases hn : n < g.fsize.toNat * 512
  · simp [fatBytes, hn, h _ (fatSect_inFat hg hn)]
  · simp [fatBytes, hn]

end FatGeometry

/-! ## The second FAT -/

section Mirror

open Program FatGeometry

variable {σ : Type} {d : Storage σ} {v : Volume σ}

/-- On the medium the second FAT is as the first one. -/
def Volume.Mirrored (d : Storage σ) (v : Volume σ) : Prop :=
  v.fs.nFats = 2 → ∀ s, v.fs.InFat s → d.sector v.disk (s + v.fs.fsize) = d.sector v.disk s

/-- The second FAT is a copy, and a window that is dirty is one of a sector that is read. -/
structure Volume.Copies (d : Storage σ) (v : Volume σ) : Prop where
  geometry : v.fs.WellFormed
  mirrored : v.Mirrored d
  visible : v.fs.wflag = true → v.fs.Visible v.fs.winsect

/-- `sync_window` writes a sector of the FAT to both. -/
theorem syncWindow_copies (hd : d.Reliable) (hv : v.Copies d) :
    Returns (syncWindow d) v fun r v' =>
      r = .frOk ∧ v'.Copies d ∧ v'.fs = { v.fs with wflag := false } := by
  have hg := hv.geometry
  unfold syncWindow
  rw [returns_bind, returns_getFs]
  refine Returns.ite (fun hw => ?_) fun hw => ⟨rfl, hv, ?_⟩
  swap
  · have hclean : v.fs.wflag = false := by simpa using hw
    rw [← hclean]
  have hvis := hv.visible hw
  have hok := hd.write v.disk v.fs.winsect 1 fun _ => v.fs.win
  rw [returns_bind, returns_diskWrites, if_pos hok, returns_bind, returns_modifyFs]
  set disk₁ := (d.diskWrite v.disk v.fs.winsect 1 fun _ => v.fs.win).2
  have hwin : d.sector disk₁ v.fs.winsect = v.fs.win := d.write_one_ok hok
  have hother : ∀ s, s ≠ v.fs.winsect → d.sector disk₁ s = d.sector v.disk s :=
    fun s hs => d.sector_write_one v.disk _ hs
  have hsecond : v.fs.nFats = 2 → ∀ s, v.fs.InFat s → s + v.fs.fsize ≠ v.fs.winsect :=
    fun hn s hs => (hvis.ne_of_inSecondFat (inSecondFat_add hn hs)).symm
  refine Returns.ite (fun hfat => ?_) fun hno => ?_
  · obtain ⟨hin, hn⟩ := hfat
    have hok₁ := hd.write disk₁ (v.fs.winsect + v.fs.fsize) 1 fun _ => v.fs.win
    rw [returns_bind, returns_diskWrites]
    set disk₂ := (d.diskWrite disk₁ (v.fs.winsect + v.fs.fsize) 1 fun _ => v.fs.win).2
    have hother₂ : ∀ s, s ≠ v.fs.winsect + v.fs.fsize → d.sector disk₂ s = d.sector disk₁ s :=
      fun s hs => d.sector_write_one disk₁ _ hs
    have hmirror : ∀ s, v.fs.InFat s → d.sector disk₂ (s + v.fs.fsize) = d.sector disk₂ s := by
      intro s hs
      rw [hother₂ s ((visible_fat hg hs).ne_of_inSecondFat (inSecondFat_add hn hin))]
      by_cases heq : s = v.fs.winsect
      · rw [heq, hwin]
        exact d.write_one_ok hok₁
      · have hne : s + v.fs.fsize ≠ v.fs.winsect + v.fs.fsize := fun h => heq (by grind)
        rw [hother₂ _ hne, hother _ (hsecond hn s hs), hother s heq]
        exact hv.mirrored hn s hs
    exact ⟨rfl, ⟨hg, fun _ => hmirror, nofun⟩, rfl⟩
  · have hmirror : v.fs.nFats = 2 → ∀ s, v.fs.InFat s →
        d.sector disk₁ (s + v.fs.fsize) = d.sector disk₁ s := by
      intro hn s hs
      have heq : s ≠ v.fs.winsect := by
        rintro rfl
        exact hno ⟨hs, hn⟩
      rw [hother _ (hsecond hn s hs), hother s heq]
      exact hv.mirrored hn s hs
    exact ⟨rfl, ⟨hg, hmirror, nofun⟩, rfl⟩

theorem moveWindow_copies (hd : d.Reliable) (hv : v.Copies d) (sect : UInt32) :
    Returns (moveWindow d sect) v fun r v' => r = .frOk ∧ v'.Copies d ∧
      v'.fs.toFatGeometry = v.fs.toFatGeometry ∧ v'.fs.winsect = sect := by
  unfold moveWindow
  rw [returns_bind, returns_getFs]
  refine Returns.ite (fun _ => ?_) fun hstay => ⟨rfl, hv, rfl, (not_not.1 hstay).symm⟩
  refine Returns.bind (syncWindow_copies hd hv) ?_
  rintro r v₁ ⟨rfl, hv₁, hfs⟩
  have hclean : v₁.fs.wflag = false := by rw [hfs]
  have hgeom : v₁.fs.toFatGeometry = v.fs.toFatGeometry := by rw [hfs]
  rw [if_pos rfl, returns_bind, returns_diskReads]
  simp only [returns_bind, returns_modifyFs]
  rw [if_pos (hd.read ..), returns_bind, returns_modifyFs]
  refine ⟨rfl, ⟨hv₁.geometry, fun hn s hs => ?_, fun hw => ?_⟩, hgeom, rfl⟩
  · simp only [Volume.setFs, d.sector_read]
    exact hv₁.mirrored hn s hs
  · exact absurd (hclean.symm.trans hw) (by decide)

theorem windowOp_copies (hd : d.Reliable) (hv : v.Copies d) (op : WindowOp)
    (hop : v.fs.Allows op) :
    Returns (windowOp d op) v fun _ v' =>
      v'.Copies d ∧ v'.fs.toFatGeometry = v.fs.toFatGeometry := by
  cases op with
  | read sect =>
    refine Returns.bind (moveWindow_copies hd hv sect) ?_
    rintro r v₁ ⟨-, hv₁, hgeom, -⟩
    exact ⟨hv₁, hgeom⟩
  | write sect i b =>
    refine Returns.bind (moveWindow_copies hd hv sect) ?_
    rintro r v₁ ⟨rfl, hv₁, hgeom, rfl⟩
    have hvis : v₁.fs.Visible v₁.fs.winsect := by
      rw [hgeom]
      exact hop
    exact ⟨⟨hv₁.geometry, hv₁.mirrored, fun _ => hvis⟩, hgeom⟩
  | sync =>
    refine Returns.bind (syncWindow_copies hd hv) ?_
    rintro r v₁ ⟨-, hv₁, hfs⟩
    exact ⟨hv₁, by rw [hfs]⟩

/-- On a drive that does not fail the second FAT stays a copy of the first one on the medium,
over every run of accesses to sectors that are read : neither those of the second FAT itself nor
the FSInfo sector. -/
theorem windowMachine_mirrored (ops : List WindowOp) (hd : d.Reliable) (hv : v.Copies d)
    (hops : ∀ op ∈ ops, v.fs.Allows op) : ((windowMachine d).run v ops).Mirrored d := by
  induction ops generalizing v with
  | nil => exact hv.mirrored
  | cons op ops ih =>
    obtain ⟨r, v', heq, hv', hgeom⟩ := returns_iff.1 (windowOp_copies hd hv op (hops op (by simp)))
    have hstep : ((windowMachine d).step v op).1 = v' := by simp [windowMachine, heq]
    rw [Machine.run_cons, hstep]
    refine ih hv' fun op' hop' => ?_
    rw [hgeom]
    exact hops op' (by simp [hop'])

end Mirror

/-- An empty volume with two FATs. -/
def mirroredVolume : Volume (UInt32 → Sector) where
  fs := { sampleVolume.fs with nFats := 2, dirbase := 3, database := 4, win := fun _ => 0 }
  disk := fun _ _ => 0

theorem windowMachine_mirrored_sample :
    ((windowMachine ramDisk).run mirroredVolume [.write 1 3 0xFF, .read 3]).Mirrored ramDisk := by
  refine windowMachine_mirrored _ ramDisk_reliable ⟨?_, fun _ _ _ => rfl, nofun⟩ ?_
  · exact ⟨by decide, by decide, ⟨0, by decide, by decide⟩, by decide, by decide, by decide,
      by decide, by decide, by decide⟩
  · simp only [List.mem_cons, List.not_mem_nil, or_false, forall_eq_or_imp, forall_eq,
      FatGeometry.Allows]
    decide

end Gd32Firmware
