import Gd32Firmware.FatFile
import Mathlib.Data.List.GetD

/-!
# The buffer of a file

A file has the sectors of its clusters, one after the other (`fileSect`); no two of them are one
(`fileSect_inj`). `Volume.Keeps` is what an operation on a file leaves of a volume : the clusters
of other files, their entries, and all sectors outside the data area but those of the FAT are as
before. `Handle.Fits` is the invariant of a file object, and `writeBack_returns` says that the
write-back of its buffer changes no byte of the file.
-/

namespace Gd32Firmware

open Program FatGeometry

variable {σ : Type}

/-! ## The sectors of a file -/

namespace FatGeometry

/-- A sector of one of these clusters. -/
def InClusters (g : FatGeometry) (C : Set UInt32) (s : UInt32) : Prop :=
  ∃ c ∈ C, ∃ k : UInt32, g.IsCluster c ∧ k.toNat < g.csize.toNat ∧ s = clst2sect g c + k

/-- The sector `n` of a file with these clusters. -/
def fileSect (g : FatGeometry) (l : List UInt32) (n : ℕ) : UInt32 :=
  clst2sect g (l.getD (n / g.csize.toNat) 0) + UInt32.ofNat (n % g.csize.toNat)

/-- Number of sectors of a file with these clusters. -/
def sectors (g : FatGeometry) (l : List UInt32) : ℕ :=
  l.length * g.csize.toNat

variable {g : FatGeometry} {C : Set UInt32} {l r : List UInt32} {n m i : ℕ} {s s' : UInt32}

/-- The window does not move into the data area. -/
theorem Moves.not_inClusters (h : g.Moves s s') (hg : g.WellFormed) (hs : ¬ g.InClusters C s) :
    ¬ g.InClusters C s' := by
  obtain rfl | hother := h
  · exact hs
  rintro ⟨c, -, k, hc, hk, rfl⟩
  obtain hno | hin := hother
  · have hlt := (data_bounds hg hc hk).2
    rw [hno] at hlt
    exact absurd hlt (by decide)
  · exact data_not_inFat hg hc hk hin

theorem toNat_mod_csize (hg : g.WellFormed) (n : ℕ) :
    (UInt32.ofNat (n % g.csize.toNat)).toNat = n % g.csize.toNat := by
  have hlt := Nat.mod_lt n hg.csize_pos
  have hle := hg.csize_le
  exact UInt32.toNat_ofNat_of_lt' (by rw [UInt32.size]; omega)

/-- The cluster of a sector of the file. -/
theorem fileSect_cluster (hn : n < g.sectors l) :
    ∃ h : n / g.csize.toNat < l.length, l.getD (n / g.csize.toNat) 0 = l[n / g.csize.toNat] := by
  have h : n / g.csize.toNat < l.length := Nat.div_lt_of_lt_mul (by rwa [mul_comm])
  exact ⟨h, List.getD_eq_getElem _ _ h⟩

/-- A sector of the file is one of its clusters. -/
theorem exists_fileSect (hg : g.WellFormed) (hmem : ∀ c ∈ l, g.IsCluster c)
    (hn : n < g.sectors l) :
    ∃ c ∈ l, ∃ k : UInt32, g.IsCluster c ∧ k.toNat < g.csize.toNat ∧
      g.fileSect l n = clst2sect g c + k := by
  obtain ⟨hlt, hget⟩ := fileSect_cluster hn
  have hin : l.getD (n / g.csize.toNat) 0 ∈ l := by
    rw [hget]
    exact List.getElem_mem hlt
  refine ⟨_, hin, _, hmem _ hin, ?_, rfl⟩
  rw [toNat_mod_csize hg]
  exact Nat.mod_lt n hg.csize_pos

theorem visible_fileSect (hg : g.WellFormed) (hmem : ∀ c ∈ l, g.IsCluster c)
    (hn : n < g.sectors l) : g.Visible (g.fileSect l n) := by
  obtain ⟨c, -, k, hc, hk, heq⟩ := exists_fileSect hg hmem hn
  rw [heq]
  exact visible_data hg hc hk

theorem fileSect_not_inFat (hg : g.WellFormed) (hmem : ∀ c ∈ l, g.IsCluster c)
    (hn : n < g.sectors l) : ¬ g.InFat (g.fileSect l n) := by
  obtain ⟨c, -, k, hc, hk, heq⟩ := exists_fileSect hg hmem hn
  rw [heq]
  exact data_not_inFat hg hc hk

/-- No sector is twice in a file. -/
theorem fileSect_inj (hg : g.WellFormed) (hmem : ∀ c ∈ l, g.IsCluster c) (hnodup : l.Nodup)
    (hn : n < g.sectors l) (hm : m < g.sectors l) (heq : g.fileSect l n = g.fileSect l m) :
    n = m := by
  obtain ⟨hltn, hgetn⟩ := fileSect_cluster hn
  obtain ⟨hltm, hgetm⟩ := fileSect_cluster hm
  have hpos := hg.csize_pos
  have hboth := data_inj hg (hmem _ (List.getElem_mem hltn)) (hmem _ (List.getElem_mem hltm))
    (by rw [toNat_mod_csize hg]; exact Nat.mod_lt n hpos)
    (by rw [toNat_mod_csize hg]; exact Nat.mod_lt m hpos)
    (by rw [← hgetn, ← hgetm]; exact heq)
  have hdiv : n / g.csize.toNat = m / g.csize.toNat := (hnodup.getElem_inj_iff).1 hboth.1
  have hmod := congrArg UInt32.toNat hboth.2
  rw [toNat_mod_csize hg, toNat_mod_csize hg] at hmod
  rw [← Nat.div_add_mod n g.csize.toNat, ← Nat.div_add_mod m g.csize.toNat, hdiv, hmod]

/-- The sectors of a file that has grown. -/
theorem fileSect_append (hn : n < g.sectors l) : g.fileSect (l ++ r) n = g.fileSect l n := by
  obtain ⟨hlt, -⟩ := fileSect_cluster hn
  rw [fileSect, fileSect, List.getD_append _ _ _ _ hlt]

/-- A sector that follows in the same cluster. -/
theorem add_div_csize {c : ℕ} (hi : n % c + i < c) :
    (n + i) / c = n / c ∧ (n + i) % c = n % c + i := by
  have hi' : i % c = i := Nat.mod_eq_of_lt (by omega)
  rw [← hi'] at hi
  have hdiv := Nat.add_div_eq_of_add_mod_lt hi
  have hmod := Nat.add_mod_of_add_mod_lt hi
  rw [Nat.div_eq_of_lt (show i < c by omega), add_zero] at hdiv
  rw [hi'] at hmod
  exact ⟨hdiv, hmod⟩

/-- The sectors of a cluster follow each other. -/
theorem fileSect_add (hi : n % g.csize.toNat + i < g.csize.toNat) :
    g.fileSect l (n + i) = g.fileSect l n + UInt32.ofNat i := by
  obtain ⟨hdiv, hmod⟩ := add_div_csize hi
  rw [fileSect, fileSect, hdiv, hmod, UInt32.ofNat_add, UInt32.add_assoc]

theorem sectors_append : g.sectors (l ++ r) = g.sectors l + g.sectors r := by
  simp [sectors, Nat.add_mul]

end FatGeometry

/-! ## What an operation leaves -/

section Frame

variable {d : Storage σ} {P : Set UInt32} {v v' v'' : Volume σ} {l l' : List UInt32}

/-- The clusters `P` are as before, with their entries, and outside the data area nothing has
changed but the FAT. -/
structure Volume.Keeps (d : Storage σ) (P : Set UInt32) (v v' : Volume σ) : Prop where
  geometry : v'.fs.toFatGeometry = v.fs.toFatGeometry
  moves : v.fs.Moves v.fs.winsect v'.fs.winsect
  coherent : v'.Coherent d
  link : ∀ c ∈ P, v.fs.IsCluster c → v'.link d c = v.link d c
  view : ∀ s, ¬ v.fs.InFat s → ¬ v.fs.InClusters Pᶜ s → v'.view d s = v.view d s

theorem Volume.Keeps.refl (hc : v.Coherent d) : v.Keeps d P v :=
  ⟨rfl, .inl rfl, hc, fun _ _ _ => rfl, fun _ _ _ => rfl⟩

theorem Volume.Keeps.trans (h : v.Keeps d P v') (h' : v'.Keeps d P v'') : v.Keeps d P v'' := by
  have hg := h.geometry
  refine ⟨h'.geometry.trans hg, h.moves.trans ?_, h'.coherent, fun c hc hcl => ?_,
    fun s hs hs' => ?_⟩
  · rw [← hg]
    exact h'.moves
  · rw [h'.link c hc (by rwa [hg]), h.link c hc hcl]
  · rw [h'.view s (by rwa [hg]) (by rwa [hg]), h.view s hs hs']

/-- The chain `l` of a file, the clusters `P` that the file does not touch, and a window that is
in none of the other ones. -/
structure Volume.Owned (d : Storage σ) (P : Set UInt32) (v : Volume σ) (l : List UInt32) : Prop
    extends Volume.Chained d v l where
  apart : ∀ c ∈ l, c ∉ P
  used : ∀ c ∈ P, v.fs.IsCluster c → v.link d c ≠ .free
  away : ¬ v.fs.InClusters Pᶜ v.fs.winsect

namespace Volume.Owned

/-- What a call for the chain keeps. -/
theorem keeps (h : v.Owned d P l) (hs : v.Spares d v' l) : v.Keeps d P v' :=
  ⟨hs.geometry, hs.moves, hs.coherent,
    fun c hc hcl => hs.link c hcl (fun hl => h.apart c hl hc) (h.used c hc hcl),
    fun s hs' _ => hs.view s hs'⟩

/-- The chain after a call. -/
theorem turns (h : v.Owned d P l) (ht : v.Turns d v' l l') : v'.Owned d P l' := by
  have hk := h.keeps ht.spares
  have hfresh : ∀ c ∈ l', c ∉ P := by
    intro c hc hP
    have hl : c ∉ l := fun hl => h.apart c hl hP
    exact h.used c hP (ht.cluster c hc hl) (ht.becomes.fresh c hc hl)
  refine ⟨h.toChained.turns ht, hfresh, fun c hc hcl => ?_, ?_⟩
  · rw [ht.geometry] at hcl
    rw [hk.link c hc hcl]
    exact h.used c hc hcl
  · rw [ht.geometry]
    exact ht.moves.not_inClusters h.geometry h.away

theorem reads (h : v.Owned d P l) (hr : v.Reads d v') : v'.Owned d P l :=
  h.turns (h.toChained.reads hr)

/-- A sector of the file is not the one in the window. -/
theorem ne_winsect (h : v.Owned d P l) {n : ℕ} (hn : n < v.fs.sectors l) :
    v.fs.fileSect l n ≠ v.fs.winsect := by
  obtain ⟨c, hc, k, hcl, hk, heq⟩ := exists_fileSect h.geometry h.mem hn
  intro hw
  exact h.away ⟨c, h.apart c hc, k, hcl, hk, hw ▸ heq⟩

/-- What is seen of a sector of the file is what the medium holds. -/
theorem view_fileSect (h : v.Owned d P l) {n : ℕ} (hn : n < v.fs.sectors l) :
    v.view d (v.fs.fileSect l n) = d.sector v.disk (v.fs.fileSect l n) :=
  Volume.view_of_ne (visible_fileSect h.geometry h.mem hn) (h.ne_winsect hn)

theorem inClusters (h : v.Owned d P l) {n : ℕ} (hn : n < v.fs.sectors l) :
    v.fs.InClusters Pᶜ (v.fs.fileSect l n) := by
  obtain ⟨c, hc, k, hcl, hk, heq⟩ := exists_fileSect h.geometry h.mem hn
  exact ⟨c, h.apart c hc, k, hcl, hk, heq⟩

end Volume.Owned

end Frame

/-! ## Transfers -/

section Transfers

variable {d : Storage σ} {P : Set UInt32} {v v' : Volume σ} {l : List UInt32} {n m : ℕ}

/-- Sectors of the file have been written, and nothing else has changed. -/
structure Volume.Wrote (d : Storage σ) (P : Set UInt32) (v v' : Volume σ) (l : List UInt32)
    (n m : ℕ) : Prop extends Volume.Keeps d P v v' where
  fs : v'.fs = v.fs
  entry : v'.entry d = v.entry d
  owned : v'.Owned d P l
  other : ∀ s, (∀ i < m, s ≠ v.fs.fileSect l (n + i)) → v'.view d s = v.view d s

/-- The sectors of a transfer, which is clipped at the cluster. -/
theorem fileSect_transfer (hclip : n % v.fs.csize.toNat + m ≤ v.fs.csize.toNat) {i : ℕ}
    (hi : i < m) :
    v.fs.fileSect l n + UInt32.ofNat i = v.fs.fileSect l (n + i) :=
  (fileSect_add (by omega)).symm

/-- Writing sectors of clusters outside `P`. -/
theorem diskWrites_clusters (hg : v.fs.WellFormed) (hc : v.Coherent d)
    (haway : ¬ v.fs.InClusters Pᶜ v.fs.winsect) {lba : UInt32} (hm : m < 2 ^ 32)
    (hin : ∀ i < m, v.fs.InClusters Pᶜ (lba + UInt32.ofNat i)) (buff : ℕ → Sector) :
    Returns (diskWrites d lba m buff) v fun r v' =>
      v.Keeps d P v' ∧ v'.fs = v.fs ∧ v'.entry d = v.entry d ∧
        (∀ s, (∀ i < m, s ≠ lba + UInt32.ofNat i) → v'.view d s = v.view d s) ∧
        ((r = .resOk ∧ ∀ i < m, v'.view d (lba + UInt32.ofNat i) = buff i) ∨
          (r ≠ .resOk ∧ ¬ d.Reliable)) := by
  rw [returns_diskWrites]
  set disk' := d.diskWrite v.disk lba m buff with hdisk
  have hother : ∀ s, (∀ i < m, s ≠ lba + UInt32.ofNat i) →
      d.sector disk'.2 s = d.sector v.disk s :=
    fun s hs => d.sector_write _ _ _ _ s hs
  have hwin : ∀ i < m, v.fs.winsect ≠ lba + UInt32.ofNat i :=
    fun i hi heq => haway (heq ▸ hin i hi)
  have hview : ∀ s, (∀ i < m, s ≠ lba + UInt32.ofNat i) →
      Volume.view d { v with disk := disk'.2 } s = v.view d s := by
    intro s hs
    simp only [Volume.view, hother s hs]
  have hfat : ∀ s, v.fs.InFat s → Volume.view d { v with disk := disk'.2 } s = v.view d s := by
    refine fun s hs => hview s fun i hi heq => ?_
    obtain ⟨c, -, k, hcl, hk, hsect⟩ := hin i hi
    exact data_not_inFat hg hcl hk (by rwa [← hsect, ← heq])
  have hentry : Volume.entry d { v with disk := disk'.2 } = v.entry d :=
    Volume.entry_congr hg rfl hfat
  have hlink : Volume.link d { v with disk := disk'.2 } = v.link d :=
    Volume.link_of_entry rfl hentry
  have hc' : Volume.Coherent d { v with disk := disk'.2 } := by
    intro hclean hvis
    rw [hother _ hwin]
    exact hc hclean hvis
  refine ⟨⟨rfl, .inl rfl, hc', fun c _ _ => by rw [hlink], fun s _ hs => hview s fun i hi => ?_⟩,
    rfl, hentry, hview, ?_⟩
  · rintro rfl
    exact hs (hin i hi)
  · by_cases hok : disk'.1 = .resOk
    · refine .inl ⟨hok, fun i hi => ?_⟩
      obtain ⟨c, -, k, hcl, hk, hsect⟩ := hin i hi
      have hvis : v.fs.Visible (lba + UInt32.ofNat i) := by
        rw [hsect]
        exact visible_data hg hcl hk
      have hseen : Volume.view d { v with disk := disk'.2 } (lba + UInt32.ofNat i) =
          d.sector disk'.2 (lba + UInt32.ofNat i) := Volume.view_of_ne hvis (hwin i hi).symm
      rw [hseen]
      exact d.write_ok v.disk _ m buff hok hm i hi
    · exact .inr ⟨hok, fun hd => hok (hd.write ..)⟩

/-- Writing sectors of the file. -/
theorem diskWrites_file (h : v.Owned d P l)
    (hclip : n % v.fs.csize.toNat + m ≤ v.fs.csize.toNat) (hm : n + m ≤ v.fs.sectors l)
    (buff : ℕ → Sector) :
    Returns (diskWrites d (v.fs.fileSect l n) m buff) v fun r v' =>
      v.Wrote d P v' l n m ∧
        ((r = .resOk ∧ ∀ i < m, v'.view d (v.fs.fileSect l (n + i)) = buff i) ∨
          (r ≠ .resOk ∧ ¬ d.Reliable)) := by
  have hsmall : m < 2 ^ 32 := by
    have hle := h.geometry.csize_le
    omega
  have hin : ∀ i < m, v.fs.InClusters Pᶜ (v.fs.fileSect l n + UInt32.ofNat i) := by
    intro i hi
    rw [fileSect_transfer hclip hi]
    exact h.inClusters (by omega)
  refine (diskWrites_clusters h.geometry h.coherent h.away hsmall hin buff).imp ?_
  rintro r v' ⟨hk, hfs, hentry, hview, hr⟩
  have hlink : v'.link d = v.link d := Volume.link_of_entry (by rw [hfs]) hentry
  refine ⟨⟨hk, hfs, hentry, ⟨⟨?_, hk.coherent, ?_, ?_⟩, h.apart, ?_, ?_⟩, fun s hs => ?_⟩,
    hr.imp_left fun hok => ⟨hok.1, fun i hi => ?_⟩⟩
  · rw [hfs]
    exact h.geometry
  · rw [hfs]
    exact h.mem
  · rw [hlink]
    exact h.leads
  · rw [hlink, hfs]
    exact h.used
  · rw [hfs]
    exact h.away
  · refine hview s fun i hi => ?_
    rw [fileSect_transfer hclip hi]
    exact hs i hi
  · rw [← fileSect_transfer hclip hi]
    exact hok.2 i hi

/-- Reading sectors of the file. -/
theorem diskReads_file (h : v.Owned d P l)
    (hclip : n % v.fs.csize.toNat + m ≤ v.fs.csize.toNat) (hm : n + m ≤ v.fs.sectors l) :
    Returns (diskReads d (v.fs.fileSect l n) m) v fun r v' =>
      v.Wrote d P v' l n 0 ∧
        ((r.1 = .resOk ∧ ∀ i < m, r.2 i = v.view d (v.fs.fileSect l (n + i))) ∨
          (r.1 ≠ .resOk ∧ ¬ d.Reliable)) := by
  have hg := h.geometry
  rw [returns_diskReads]
  set read := d.diskRead v.disk (v.fs.fileSect l n) m with hread
  have hsector : d.sector read.2 = d.sector v.disk := d.sector_read ..
  have hview : Volume.view d { v with disk := read.2 } = v.view d := by
    funext s
    simp only [Volume.view, hsector]
  have hentry : Volume.entry d { v with disk := read.2 } = v.entry d :=
    Volume.entry_of_view rfl hview
  have hlink : Volume.link d { v with disk := read.2 } = v.link d :=
    Volume.link_of_entry rfl hentry
  have hc : Volume.Coherent d { v with disk := read.2 } := by
    intro hclean hvis
    rw [hsector]
    exact h.coherent hclean hvis
  refine ⟨⟨⟨rfl, .inl rfl, hc, fun c _ _ => by rw [hlink], fun s _ _ => by rw [hview]⟩,
    rfl, hentry, ⟨⟨hg, hc, h.mem, by rw [hlink]; exact h.leads⟩, h.apart,
      by rw [hlink]; exact h.used, h.away⟩, fun s _ => by rw [hview]⟩, ?_⟩
  by_cases hok : read.1.1 = .resOk
  · refine .inl ⟨hok, fun i hi => ?_⟩
    rw [h.view_fileSect (show n + i < v.fs.sectors l by omega), ← fileSect_transfer hclip hi]
    exact d.read_ok v.disk _ m hok i hi
  · exact .inr ⟨hok, fun hd => hok (hd.read ..)⟩

/-- Reading changes nothing that is seen. -/
theorem Volume.Wrote.view_eq (hw : v.Wrote d P v' l n 0) : v'.view d = v.view d :=
  funext fun s => hw.other s fun i hi => absurd hi (Nat.not_lt_zero i)

/-- A transfer does not change the FAT. -/
theorem Volume.Wrote.relinks (hw : v.Wrote d P v' l n m) (h : v.Owned d P l) :
    v.Relinks d v' l l :=
  .of_entry h.leads hw.geometry hw.entry (by rw [hw.fs])

end Transfers

/-! ## File objects -/

section Handles

variable {d : Storage σ} {P : Set UInt32} {h h' : Handle σ} {v : Volume σ} {l l' : List UInt32}
  {n p : ℕ}

@[simp] theorem returns_onVol {α : Type} {m : Program (Volume σ) α} {Q : α → Handle σ → Prop} :
    Returns (onVol m) h Q ↔ Returns m h.vol fun a v => Q a { h with vol := v } :=
  returns_zoom

@[simp] theorem returns_getFil {Q : Fil → Handle σ → Prop} :
    Returns getFil h Q ↔ Q h.fil h :=
  Iff.rfl

@[simp] theorem returns_modifyFil {f : Fil → Fil} {Q : Unit → Handle σ → Prop} :
    Returns (modifyFil f) h Q ↔ Q () { h with fil := f h.fil } :=
  Iff.rfl

/-- A byte of the file, as the object sees it : a dirty buffer is over its sector. -/
def Handle.byte (d : Storage σ) (h : Handle σ) (l : List UInt32) (p : ℕ) : UInt8 :=
  let s := h.vol.fs.fileSect l (p / 512)
  if h.fil.faDirty ∧ s = h.fil.sect then h.fil.buf.at p else (h.vol.view d s).at p

/-- The object of a file with the clusters `l` : its pointer is in the file and the file in its
clusters; a dirty buffer is one of a sector of the file, and a clean one holds what is seen of
its sector, as far as that is in the file. -/
structure Handle.Fits (d : Storage σ) (P : Set UInt32) (h : Handle σ) (l : List UInt32) :
    Prop where
  owned : h.vol.Owned d P l
  start : h.fil.sclust = l.headD 0
  size : h.fil.objsize.toNat ≤ 512 * h.vol.fs.sectors l
  pos : h.fil.fptr.toNat ≤ h.fil.objsize.toNat
  dirty : h.fil.faDirty = true → ∃ n < h.vol.fs.sectors l, h.fil.sect = h.vol.fs.fileSect l n
  clean : h.fil.faDirty = false → ∀ p < h.fil.objsize.toNat,
    h.vol.fs.fileSect l (p / 512) = h.fil.sect → h.fil.buf.at p = (h.vol.view d h.fil.sect).at p

/-- The cluster and the sector that belong to the pointer : the cluster of the byte before it,
and within a sector that sector. -/
structure Handle.At (h : Handle σ) (l : List UInt32) : Prop where
  clust : 0 < h.fil.fptr.toNat →
    l[(h.fil.fptr.toNat - 1) / 512 / h.vol.fs.csize.toNat]? = some h.fil.clust
  sect : h.fil.fptr.toNat % 512 ≠ 0 → h.fil.sect = h.vol.fs.fileSect l (h.fil.fptr.toNat / 512)

namespace Handle.Fits

theorem div_lt (hf : h.Fits d P l) (hp : p < h.fil.objsize.toNat) :
    p / 512 < h.vol.fs.sectors l := by
  have hsize := hf.size
  omega

theorem nodup (hf : h.Fits d P l) : l.Nodup :=
  hf.owned.leads.nodup

theorem inj (hf : h.Fits d P l) {n m : ℕ} (hn : n < h.vol.fs.sectors l)
    (hm : m < h.vol.fs.sectors l)
    (heq : h.vol.fs.fileSect l n = h.vol.fs.fileSect l m) : n = m :=
  fileSect_inj hf.owned.geometry hf.owned.mem hf.nodup hn hm heq

/-- The bytes of the file in the buffer. -/
theorem byte_buf (hf : h.Fits d P l) (hp : p < h.fil.objsize.toNat)
    (hs : h.vol.fs.fileSect l (p / 512) = h.fil.sect) : h.byte d l p = h.fil.buf.at p := by
  unfold Handle.byte
  cases hw : h.fil.faDirty with
  | true => simp [hs]
  | false => simp [hs, hf.clean hw p hp hs]

end Handle.Fits

/-- The bytes of a file that is not dirty. -/
theorem Handle.byte_of_clean (hw : h.fil.faDirty = false) :
    h.byte d l p = (h.vol.view d (h.vol.fs.fileSect l (p / 512))).at p := by
  simp [Handle.byte, hw]

/-- A change of the volume that leaves the clusters of the file alone. -/
theorem Handle.Fits.frame {Q : Set UInt32} (hf : h.Fits d P l)
    (hg : v.fs.toFatGeometry = h.vol.fs.toFatGeometry) (hc : v.Coherent d)
    (hlink : ∀ c ∈ l, v.link d c = h.vol.link d c)
    (hview : ∀ n < h.vol.fs.sectors l,
      v.view d (h.vol.fs.fileSect l n) = h.vol.view d (h.vol.fs.fileSect l n))
    (hapart : ∀ c ∈ l, c ∉ Q) (hused : ∀ c ∈ Q, v.fs.IsCluster c → v.link d c ≠ .free)
    (haway : ¬ v.fs.InClusters Qᶜ v.fs.winsect) :
    Handle.Fits d Q { h with vol := v } l ∧
      ∀ p, p / 512 < h.vol.fs.sectors l →
        Handle.byte d { h with vol := v } l p = h.byte d l p := by
  have hchain := hf.owned.toChained
  refine ⟨⟨⟨⟨?_, hc, ?_, hchain.leads.congr hlink⟩, hapart, hused, haway⟩, hf.start, ?_, hf.pos,
    ?_, fun hw p hp hs => ?_⟩, fun p hp => ?_⟩
  · rw [hg]
    exact hchain.geometry
  · rw [hg]
    exact hchain.mem
  · simp only [hg]
    exact hf.size
  · simp only [hg]
    exact hf.dirty
  · simp only [hg] at hs ⊢
    rw [← hs, hview _ (hf.div_lt hp), hs]
    exact hf.clean hw p hp hs
  · simp only [Handle.byte, hg, hview _ hp]

/-- What a step leaves of the file : its chain `l'` is `l` or longer than it, and its bytes are
the same. -/
structure Handle.Grows (d : Storage σ) (P : Set UInt32) (h h' : Handle σ) (l l' : List UInt32) :
    Prop extends Handle.Fits d P h' l' where
  keeps : h.vol.Keeps d P h'.vol
  relinks : h.vol.Relinks d h'.vol l l'
  tail : ∃ r, l' = l ++ r
  byte : ∀ p, p / 512 < h.vol.fs.sectors l → h'.byte d l' p = h.byte d l p

/-- The step leaves the chain as it is, too. -/
abbrev Handle.Still (d : Storage σ) (P : Set UInt32) (h h' : Handle σ) (l : List UInt32) : Prop :=
  h.Grows d P h' l l

namespace Handle.Grows

theorem fs (hg : h.Grows d P h' l l') : h'.vol.fs.toFatGeometry = h.vol.fs.toFatGeometry :=
  hg.keeps.geometry

theorem sectors (hg : h.Grows d P h' l l') : h.vol.fs.sectors l ≤ h'.vol.fs.sectors l' := by
  obtain ⟨r, rfl⟩ := hg.tail
  rw [hg.fs, sectors_append]
  exact Nat.le_add_right ..

theorem refl (hf : h.Fits d P l) : h.Grows d P h l l :=
  ⟨hf, .refl hf.owned.coherent,
    ⟨rfl, .refl hf.owned.leads, fun _ hc hc' => absurd hc hc', id⟩,
    ⟨[], (List.append_nil l).symm⟩, fun _ _ => rfl⟩

theorem trans {h'' : Handle σ} {l'' : List UInt32} (hg : h.Grows d P h' l l')
    (hg' : h'.Grows d P h'' l' l'') : h.Grows d P h'' l l'' := by
  refine ⟨hg'.toFits, hg.keeps.trans hg'.keeps, hg.relinks.trans hg'.relinks, ?_,
    fun p hp => ?_⟩
  · obtain ⟨r, rfl⟩ := hg.tail
    obtain ⟨r', rfl⟩ := hg'.tail
    exact ⟨r ++ r', List.append_assoc ..⟩
  · rw [hg'.byte p (lt_of_lt_of_le hp hg.sectors), hg.byte p hp]

end Handle.Grows

/-- The write-back of the buffer changes no byte of the file, even if it fails : the buffer is
over its sector then as before. -/
theorem writeBack_returns (hf : h.Fits d P l) :
    Returns (writeBack d) h fun r h' =>
      h.Still d P h' l ∧ h'.vol.fs = h.vol.fs ∧
        ((r = .frOk ∧ h'.fil = { h.fil with faDirty := false }) ∨
          (r = .frDiskErr ∧ ¬ d.Reliable ∧ h'.fil = h.fil)) := by
  unfold writeBack
  rw [returns_bind, returns_getFil]
  refine Returns.ite (fun hw => ?_) fun hw => ?_
  swap
  · have hclean : h.fil.faDirty = false := by simpa using hw
    refine ⟨.refl hf, rfl, .inl ⟨rfl, ?_⟩⟩
    rw [← hclean]
  obtain ⟨n, hn, hsect⟩ := hf.dirty hw
  have hclip : n % h.vol.fs.csize.toNat + 1 ≤ h.vol.fs.csize.toNat :=
    Nat.mod_lt n hf.owned.geometry.csize_pos
  rw [hsect, returns_bind, returns_onVol]
  refine (diskWrites_file hf.owned hclip hn fun _ => h.fil.buf).imp ?_
  rintro r v' ⟨hwrote, hr⟩
  have hother : ∀ s, s ≠ h.fil.sect → v'.view d s = h.vol.view d s := by
    refine fun s hs => hwrote.other s fun i hi => ?_
    obtain rfl : i = 0 := by omega
    rwa [Nat.add_zero, ← hsect]
  refine Returns.ite (fun hok => ?_) fun hok => ?_
  swap
  · refine ⟨⟨⟨hwrote.owned, hf.start, ?_, hf.pos, ?_, ?_⟩, hwrote.toKeeps, hwrote.relinks hf.owned,
      ⟨[], (List.append_nil l).symm⟩, fun p _ => ?_⟩, hwrote.fs,
      .inr ⟨rfl, (hr.resolve_left fun h => hok h.1).2, rfl⟩⟩
    · simp only [hwrote.fs]
      exact hf.size
    · simp only [hwrote.fs]
      exact hf.dirty
    · intro hclean
      exact absurd (hw.symm.trans hclean) (by decide)
    · unfold Handle.byte
      by_cases hs : h.vol.fs.fileSect l (p / 512) = h.fil.sect
      · simp [hwrote.fs, hw, hs]
      · simp [hwrote.fs, hs, hother _ hs]
  obtain ⟨-, hview⟩ := hr.resolve_right fun h => h.1 hok
  have hbuf : v'.view d h.fil.sect = h.fil.buf := by
    rw [hsect]
    exact hview 0 (by decide)
  have hbyte : ∀ p, (v'.view d (h.vol.fs.fileSect l (p / 512))).at p = h.byte d l p := by
    intro p
    unfold Handle.byte
    by_cases hs : h.vol.fs.fileSect l (p / 512) = h.fil.sect
    · simp [hs, hw, hbuf]
    · simp [hs, hother _ hs]
  rw [returns_bind, returns_modifyFil]
  refine ⟨⟨⟨hwrote.owned, hf.start, ?_, hf.pos, nofun, ?_⟩, hwrote.toKeeps, hwrote.relinks hf.owned,
    ⟨[], (List.append_nil l).symm⟩, fun p _ => ?_⟩, hwrote.fs, .inl ⟨rfl, rfl⟩⟩
  · simp only [hwrote.fs]
    exact hf.size
  · intro _ p hp hs
    simp only [hwrote.fs] at hs ⊢
    rw [hbuf]
  · have hp := hbyte p
    rw [← hwrote.fs] at hp
    rw [← hp]
    exact Handle.byte_of_clean rfl

end Handles

end Gd32Firmware
