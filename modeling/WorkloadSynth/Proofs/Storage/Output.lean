import WorkloadSynth.Proofs.Storage.Volume
import WorkloadSynth.Storage.Output

/-!
# What is on disk after saving

Saving writes the archive and then the manifest, to paths that share their front.  If the names differ the
two files lie beside each other and both are there in the end.  They differ unless the output has the
extension of a manifest; then the manifest is written in place of the archive, and saving still succeeds.
-/

set_option autoImplicit false

namespace WorkloadSynth

/-! ## Archives without a fault -/

namespace Dataset

variable {d : Dataset Float}

theorem partsEntries_complete {ps : List Part} (h : (d.partsEntries ps).2 = none) :
    ∃ archives : List Archive, ps.map d.partEntries = archives.map .ok ∧
      (d.partsEntries ps).1.flatMap (·.2) = archives.flatten := by
  induction ps with
  | nil => exact ⟨[], rfl, rfl⟩
  | cons p ps ih =>
      rw [partsEntries] at h ⊢
      cases hentries : d.partEntries p with
      | error fault =>
          rw [hentries] at h
          cases h
      | ok entries =>
          rw [hentries] at h
          obtain ⟨archives, hmap, hflat⟩ := ih h
          refine ⟨entries :: archives, ?_, ?_⟩
          · rw [List.map_cons, List.map_cons, hentries, hmap]
          · rw [List.flatten_cons, ← hflat]
            rfl

theorem pack_complete (h : d.pack.fault = none) : ∃ train validation test,
    d.partEntries .train = .ok train ∧ d.partEntries .validation = .ok validation ∧
      d.partEntries .test = .ok test ∧
      d.pack.archive = train ++ validation ++ test ++ [d.lengthEntry] := by
  have hfault : (d.partsEntries Part.all).2 = none := h
  obtain ⟨archives, hmap, hflat⟩ := partsEntries_complete hfault
  obtain ⟨train, archives, rfl, htrain, hmap⟩ := List.map_eq_cons_iff.mp hmap.symm
  obtain ⟨validation, archives, rfl, hvalidation, hmap⟩ := List.map_eq_cons_iff.mp hmap
  obtain ⟨test, archives, rfl, htest, hmap⟩ := List.map_eq_cons_iff.mp hmap
  obtain rfl : archives = [] := List.map_eq_nil_iff.mp hmap
  refine ⟨train, validation, test, htrain.symm, hvalidation.symm, htest.symm, ?_⟩
  have harchive : d.pack.archive = (d.partsEntries Part.all).1.flatMap (·.2) ++ [d.lengthEntry] := by
    simp [pack, hfault]
  rw [harchive, hflat]
  simp

end Dataset

/-! ## Runs in memory -/

namespace Host

variable {now : Timestamp} {output : Path} {d : Dataset Float} {digest : Digest} {w w' : World}

theorem bind_run_eq_ok {ε : Type} {step : StateM World (Except ε Unit)}
    {next : Except ε Unit → StateM World (Except OutputFault Unit)}
    (h : (step >>= next).run w = (.ok (), w'))
    (hfault : ∀ e w₁, (next (.error e)).run w₁ ≠ (.ok (), w')) :
    ∃ w₁, step.run w = (.ok (), w₁) ∧ (next (.ok ())).run w₁ = (.ok (), w') := by
  rw [StateT.run_bind] at h
  generalize step.run w = r at h ⊢
  obtain ⟨e | _, w₁⟩ := r
  · exact absurd h (hfault e w₁)
  · exact ⟨w₁, rfl, h⟩

theorem writeFile_eq_ok {p : Path} {content : Content}
    (h : ((onWorld now).writeFile p content).run w = (.ok (), w')) :
    w.volume.writeFile p content = .ok w'.volume := by
  dsimp only [onWorld, World.onVolume, StateT.run] at h
  split at h
  · next hwritten =>
      obtain ⟨-, rfl⟩ := Prod.mk.inj h
      exact hwritten
  · cases h

theorem volume_notes (now : Timestamp) (event : Part → Event) (ps : List Part) (w : World) :
    ((ps.forM fun p => (onWorld now).note (event p)).run w).2.volume = w.volume := by
  induction ps generalizing w with
  | nil => rfl
  | cons p ps ih => exact ih _

theorem saveArchive_eq_ok (h : ((onWorld now).saveArchive output d).run w = (.ok (), w')) :
    d.pack.fault = none ∧ w.volume.writeFile output (.archive d.pack.archive) = .ok w'.volume := by
  unfold saveArchive at h
  obtain ⟨w₁, hwritten, h⟩ := bind_run_eq_ok h nofun
  have hnotes := volume_notes now (fun p => ⟨none, .partWritten p (d.part p).length⟩) d.pack.packed w₁
  rw [StateT.run_bind] at h
  cases hfault : d.pack.fault with
  | some fault =>
      rw [hfault] at h
      cases h
  | none =>
      rw [hfault] at h
      obtain ⟨-, rfl⟩ := Prod.mk.inj h
      exact ⟨rfl, (writeFile_eq_ok hwritten).trans (congrArg Except.ok hnotes.symm)⟩

theorem save_eq_ok (h : ((onWorld now).save output d digest).run w = (.ok (), w')) :
    d.pack.fault = none ∧ ∃ v v' : Volume, v.writeFile output (.archive d.pack.archive) = .ok v' ∧
      v'.writeFile output.manifest (.text digest.manifest) = .ok w'.volume := by
  unfold save at h
  obtain ⟨w₁, -, h⟩ := bind_run_eq_ok h nofun
  obtain ⟨w₂, hsaved, h⟩ := bind_run_eq_ok h nofun
  obtain ⟨w₃, hmanifest, h⟩ := bind_run_eq_ok h nofun
  obtain ⟨-, rfl⟩ := Prod.mk.inj h
  obtain ⟨hfault, harchive⟩ := saveArchive_eq_ok hsaved
  exact ⟨hfault, w₁.volume, w₂.volume, harchive, writeFile_eq_ok hmanifest⟩

theorem file?_of_writes {v v' v'' : Volume} {extension : String} {first second : Content}
    (hfirst : v.writeFile output first = .ok v')
    (hsecond : v'.writeFile (output.withExtension extension) second = .ok v'')
    (hextension : '/' ∉ extension.toList) :
    v''.file? (output.withExtension extension) = some second ∧
      (output.extension? ≠ some extension → v''.file? output = some first) ∧
      (output.extension? = some extension → output.withExtension extension = output) := by
  obtain ⟨l, name, hleads, hnode, rfl⟩ := Volume.writeFile_eq_ok.mp hfirst
  obtain ⟨l', name', hleads', hnode', rfl⟩ := Volume.writeFile_eq_ok.mp hsecond
  obtain ⟨front, hends⟩ := hleads.exists_ends
  have hsister := hends.withExtension hleads.entry hextension
  have hkept := hleads.put (n := .file first) hnode
  obtain ⟨rfl, rfl⟩ := hkept.of_ends hleads' hends hsister
  have hname := hends.sister_name_eq_iff hleads.entry extension
  refine ⟨Volume.file?_put hleads' hnode', ?_, ?_⟩
  · intro hne
    have hplace : l' ++ [name] ≠ l' ++ [Path.stem name ++ "." ++ extension] := by
      intro e
      have hlast := List.singleton_inj.mp (List.append_cancel_left e)
      exact hne (hname.mp hlast.symm)
    apply (hkept.put hnode').file?_eq
    rw [Volume.at?_put_of_ne hplace]
    exact Volume.at?_put_self (by simp)
  · intro hsame
    have htext := hsister.text
    rw [hname.mpr hsame, ← hends.text] at htext
    cases output
    exact congrArg Path.mk (String.toList_inj.mp htext)

theorem files_of_save (h : ((onWorld now).save output d digest).run w = (.ok (), w')) :
    w'.volume.file? output.manifest = some (.text digest.manifest) ∧
      (output.extension? ≠ some "json" → w'.volume.file? output = some (.archive d.pack.archive)) ∧
      (output.extension? = some "json" → output.manifest = output) := by
  obtain ⟨-, v, v', harchive, hmanifest⟩ := save_eq_ok h
  exact file?_of_writes harchive hmanifest (by decide)

/-- After saving, the manifest is in its file.  The arrays of the three parts and the number of steps are
in the file of the output, unless the output has the extension of a manifest: then it is the path of the
manifest as well. -/
theorem save_keeps_both_files (h : ((onWorld now).save output d digest).run w = (.ok (), w')) :
    w'.volume.file? output.manifest = some (.text digest.manifest) ∧
    (∃ train validation test, d.partEntries .train = .ok train ∧
      d.partEntries .validation = .ok validation ∧ d.partEntries .test = .ok test ∧
      (output.extension? ≠ some "json" → w'.volume.file? output =
        some (.archive (train ++ validation ++ test ++ [d.lengthEntry])))) ∧
    (output.extension? = some "json" → output.manifest = output) := by
  obtain ⟨hfault, -⟩ := save_eq_ok h
  obtain ⟨train, validation, test, htrain, hvalidation, htest, hpacked⟩ := Dataset.pack_complete hfault
  obtain ⟨hsecond, hfirst, hsame⟩ := files_of_save h
  rw [hpacked] at hfirst
  exact ⟨hsecond, ⟨train, validation, test, htrain, hvalidation, htest, hfirst⟩, hsame⟩

theorem exists_world_of_isOk (action : StateM World (Except OutputFault Unit)) (w : World)
    (h : (action.run w).1.isOk = true) : ∃ w', action.run w = (.ok (), w') := by
  obtain ⟨⟨_ | u, w'⟩, hrun⟩ : ∃ r, action.run w = r := ⟨_, rfl⟩
  · rw [hrun] at h
    cases h
  · exact ⟨w', hrun⟩

theorem save_under_new_directories :
    let step : Usage Float := ⟨⟨0.5, 0.5, 0.5⟩, ⟨0.5, 0.5, 0.5⟩, 0.0, 0.0, 0.0, 0.0, 0.0, 0.0⟩
    let sample : Sample Float := ⟨0, ⟨.web, ⟨0.0, 0.0, 1.0⟩, none, [step]⟩, ⟨⟨0.1, 0.2⟩, ⟨0.1, 0.2⟩, 0.9⟩⟩
    let d : Dataset Float := ⟨.flat, 1, [sample], [], []⟩
    let digest : Digest := .ofDataset d .standard ⟨0, 0⟩
    ∃ w', ((onWorld ⟨0, 0⟩).save ⟨"runs/v1.0/data.tar.npz"⟩ d digest).run (.ofVolume (.fresh "work")) =
        (.ok (), w') ∧
      (∃ archive, w'.volume.file? ⟨"runs/v1.0/data.tar.npz"⟩ = some (.archive archive)) ∧
      w'.volume.file? ⟨"runs/v1.0/data.tar.json"⟩ = some (.text digest.manifest) := by
  intro step sample d digest
  obtain ⟨w', h⟩ := exists_world_of_isOk ((onWorld ⟨0, 0⟩).save ⟨"runs/v1.0/data.tar.npz"⟩ d digest)
    (.ofVolume (.fresh "work")) (by decide +kernel)
  obtain ⟨hmanifest, ⟨_, _, _, -, -, -, harchive⟩, -⟩ := save_keeps_both_files h
  have hextension : Path.extension? ⟨"runs/v1.0/data.tar.npz"⟩ ≠ some "json" := by decide
  have hpath : Path.manifest ⟨"runs/v1.0/data.tar.npz"⟩ = ⟨"runs/v1.0/data.tar.json"⟩ := by decide
  exact ⟨w', h, ⟨_, harchive hextension⟩, hpath ▸ hmanifest⟩

/-- An output that is called as its manifest would be: saving succeeds and leaves no archive. -/
theorem save_overwrites_archive :
    let d : Dataset Float := ⟨.flat, 1, [], [], []⟩
    let digest : Digest := .ofDataset d .standard ⟨0, 0⟩
    ∃ w', ((onWorld ⟨0, 0⟩).save ⟨"same.json"⟩ d digest).run (.ofVolume (.fresh "work")) = (.ok (), w') ∧
      w'.volume.file? ⟨"same.json"⟩ = some (.text digest.manifest) ∧
      ∀ archive, w'.volume.file? ⟨"same.json"⟩ ≠ some (.archive archive) := by
  intro d digest
  obtain ⟨w', h⟩ := exists_world_of_isOk ((onWorld ⟨0, 0⟩).save ⟨"same.json"⟩ d digest)
    (.ofVolume (.fresh "work")) (by decide +kernel)
  obtain ⟨hsecond, -, hsame⟩ := files_of_save h
  have hpath : Path.manifest ⟨"same.json"⟩ = ⟨"same.json"⟩ := hsame (by decide)
  rw [hpath] at hsecond
  refine ⟨w', h, hsecond, ?_⟩
  intro archive
  rw [hsecond]
  exact nofun

end Host

end WorkloadSynth
