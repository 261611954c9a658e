import WorkloadSynth.Proofs.Number.Order
import WorkloadSynth.Proofs.Storage.Path
import WorkloadSynth.Storage.Volume

/-!
# Files on a volume

A path that a file can be written to leads to one entry of one directory (`Leads`).  Writing puts the file
there, and since only a directory that is no more could break a way, every path still leads where it led.
So a file that was written is read back, and writing to another entry leaves it as it is.
-/

set_option autoImplicit false

namespace WorkloadSynth.Volume

variable {v v' : Volume} {l l' place : Location} {n : Node} {p q : Path} {name name' : String}

/-! ## Nodes -/

theorem at?_put_self (h : place ≠ []) : (v.put place n).at? place = some n := by
  have hnone : (v.nodes.filter (·.1 ≠ place)).find? (·.1 = place) = none := by
    simp
  rw [at?, if_neg h]
  change Option.map _ (List.find? _ (v.nodes.filter (·.1 ≠ place) ++ [(place, n)])) = _
  rw [List.find?_append, hnone]
  simp

theorem at?_put_of_ne (h : l ≠ place) : (v.put place n).at? l = v.at? l := by
  unfold at?
  by_cases hl : l = []
  · rw [if_pos hl, if_pos hl]
  · have hfilter : (v.nodes.filter (·.1 ≠ place)).find? (·.1 = l) = v.nodes.find? (·.1 = l) := by
      rw [List.find?_filter]
      congr 1
      funext node
      by_cases hnode : node.1 = l
      · simp [hnode, h]
      · simp [hnode]
    have hplace : place ≠ l := Ne.symm h
    rw [if_neg hl, if_neg hl]
    change Option.map _ (List.find? _ (v.nodes.filter (·.1 ≠ place) ++ [(place, n)])) = _
    rw [List.find?_append, hfilter]
    simp [hplace]

/-! ## Ways -/

theorem enter_put (hplace : v.at? place ≠ some .directory) (h : v.enter l name = .ok l') :
    (v.put place n).enter l name = .ok l' := by
  unfold enter at h ⊢
  split_ifs at h ⊢ with hdot hup
  · exact h
  · exact h
  · obtain ⟨node, hlook, h⟩ := bind_eq_ok.mp h
    unfold look at hlook
    split_ifs at hlook with hsize
    have hnode : v.at? (l ++ [name]) = node := Except.ok.inj hlook
    rcases node with _ | _ | content
    · cases h
    · have hne : l ++ [name] ≠ place := by
        rintro rfl
        exact hplace hnode
      refine bind_eq_ok.mpr ⟨some .directory, ?_, h⟩
      rw [look, if_neg hsize, at?_put_of_ne hne, hnode]
    · cases h

/-- A way leads through directories, so putting a node where there is none does not block it. -/
theorem walk_put (hplace : v.at? place ≠ some .directory) {names : List String}
    (h : v.walk l names = .ok l') : (v.put place n).walk l names = .ok l' := by
  induction names generalizing l with
  | nil => exact h
  | cons name names ih =>
      obtain ⟨next, hnext, h⟩ := bind_eq_ok.mp h
      exact bind_eq_ok.mpr ⟨next, enter_put hplace hnext, ih h⟩

theorem approach_eq_ok {last : Option String} : v.approach p = .ok (l, last) ↔
    refusal? p = none ∧ v.walk (v.start p) p.names.dropLast = .ok l ∧ p.names.getLast? = last := by
  unfold approach
  cases hrefusal : refusal? p with
  | some fault => simp
  | none =>
      simp only [bind_eq_ok, true_and]
      constructor
      · rintro ⟨_, hwalk, ⟨⟩⟩
        exact ⟨hwalk, rfl⟩
      · rintro ⟨hwalk, rfl⟩
        exact ⟨l, hwalk, rfl⟩

/-! ## Files -/

structure Leads (v : Volume) (p : Path) (l : Location) (name : String) : Prop where
  approach : v.approach p = .ok (l, some name)
  slash : p.endsInSlash = false
  entry : Path.isEntryName name = true
  size : ¬ maxNameSize < name.utf8ByteSize

theorem Leads.look (h : v.Leads p l name) : v.look l name = .ok (v.at? (l ++ [name])) := if_neg h.size

theorem Leads.put (h : v.Leads p l name) (hplace : v.at? place ≠ some .directory) :
    (v.put place n).Leads p l name := by
  obtain ⟨hrefusal, hwalk, hlast⟩ := approach_eq_ok.mp h.approach
  exact ⟨approach_eq_ok.mpr ⟨hrefusal, walk_put hplace hwalk, hlast⟩, h.slash, h.entry, h.size⟩

theorem Leads.exists_ends (h : v.Leads p l name) : ∃ front, p.Ends front name :=
  Path.exists_ends h.slash (approach_eq_ok.mp h.approach).2.2

theorem Leads.of_ends {front : List Char} (hp : v.Leads p l name) (hq : v.Leads q l' name')
    (h : p.Ends front name) {last : String} (h' : q.Ends front last) : l' = l ∧ name' = last := by
  obtain ⟨-, hwalk, -⟩ := approach_eq_ok.mp hp.approach
  obtain ⟨-, hwalk', hlast'⟩ := approach_eq_ok.mp hq.approach
  have hstart : v.start q = v.start p := by
    unfold start
    rw [h.isAbsolute_eq h']
  rw [h.dropLast_names h', hstart, hwalk] at hwalk'
  rw [h'.getLast?_names] at hlast'
  exact ⟨(Except.ok.inj hwalk').symm, (Option.some.inj hlast').symm⟩

theorem Leads.file?_eq (h : v.Leads p l name) {content : Content}
    (hfile : v.at? (l ++ [name]) = some (.file content)) : v.file? p = some content := by
  unfold file?
  simp only [h.approach, h.slash, h.look, hfile, Bool.false_eq_true, if_false]

theorem writeFile_eq_ok {content : Content} : v.writeFile p content = .ok v' ↔
    ∃ l name, v.Leads p l name ∧ v.at? (l ++ [name]) ≠ some .directory ∧
      v' = v.put (l ++ [name]) (.file content) := by
  constructor
  · intro h
    obtain ⟨⟨l, last⟩, happroach, h⟩ := bind_eq_ok.mp h
    cases last with
    | none => cases h
    | some name =>
        dsimp only at h
        split_ifs at h with hname
        obtain ⟨node, hlook, h⟩ := bind_eq_ok.mp h
        obtain ⟨hslash, hentry⟩ := not_or.mp hname
        unfold look at hlook
        split_ifs at hlook with hsize
        have hnode : v.at? (l ++ [name]) = node := Except.ok.inj hlook
        refine ⟨l, name, ⟨happroach, by simpa using hslash, not_not.mp hentry, hsize⟩, ?_, ?_⟩
        · rw [hnode]
          rintro rfl
          cases h
        · split at h
          · cases h
          · exact (Except.ok.inj h).symm
  · rintro ⟨l, name, hleads, hnode, rfl⟩
    refine bind_eq_ok.mpr ⟨_, hleads.approach, ?_⟩
    have hname : ¬ (p.endsInSlash = true ∨ ¬ Path.isEntryName name = true) := by
      simp [hleads.slash, hleads.entry]
    dsimp only
    rw [if_neg hname]
    refine bind_eq_ok.mpr ⟨_, hleads.look, ?_⟩
    split
    · next heq => exact absurd heq hnode
    · rfl

theorem file?_put {content : Content} (h : v.Leads p l name) (hnode : v.at? (l ++ [name]) ≠ some .directory) :
    (v.put (l ++ [name]) (.file content)).file? p = some content :=
  (h.put hnode).file?_eq (at?_put_self (by simp))

end WorkloadSynth.Volume
