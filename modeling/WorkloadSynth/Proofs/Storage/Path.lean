import WorkloadSynth.Storage.Path
import Mathlib.Data.List.TakeWhile

/-!
# Paths of files and of their sisters

A path that can be written to ends in a name, and neither in a slash nor in a step within the tree.  Such a
path is a front, which is empty or ends in a slash, and the characters of its name (`Ends`).  Giving it
another extension keeps the front, so the sister file is in the same directory; it is the same file if and
only if the extension was that one already.
-/

set_option autoImplicit false

namespace WorkloadSynth.Path

/-! ## Cutting at slashes -/

theorem cutAtSlashes_ne_nil (cs : List Char) : cutAtSlashes cs ≠ [] := by
  cases cs with
  | nil => exact List.cons_ne_nil _ _
  | cons c cs =>
      unfold cutAtSlashes
      split
      · exact List.cons_ne_nil _ _
      · split <;> exact List.cons_ne_nil _ _

theorem cutAtSlashes_append_slash (xs ys : List Char) :
    cutAtSlashes (xs ++ '/' :: ys) = cutAtSlashes xs ++ cutAtSlashes ys := by
  induction xs with
  | nil =>
      obtain ⟨first, others, h⟩ := List.exists_cons_of_ne_nil (cutAtSlashes_ne_nil ys)
      simp [cutAtSlashes, h]
  | cons c xs ih =>
      obtain ⟨first, others, h⟩ := List.exists_cons_of_ne_nil (cutAtSlashes_ne_nil xs)
      rw [h] at ih
      rw [List.cons_append, cutAtSlashes, cutAtSlashes, ih, h]
      by_cases hc : c = '/'
      · simp [hc]
      · simp [hc]

theorem cutAtSlashes_of_not_mem {cs : List Char} (h : '/' ∉ cs) : cutAtSlashes cs = [cs] := by
  induction cs with
  | nil => rfl
  | cons c cs ih =>
      have hc : c ≠ '/' := fun e => h (by simp [e])
      have hcs : '/' ∉ cs := fun hmem => h (List.mem_cons_of_mem c hmem)
      rw [cutAtSlashes, ih hcs]
      simp [hc]

/-! ## The last of a character -/

theorem split_at_last (c : Char) (cs : List Char) :
    (cs.reverse.dropWhile (· ≠ c)).reverse ++ (cs.reverse.takeWhile (· ≠ c)).reverse = cs ∧
      c ∉ (cs.reverse.takeWhile (· ≠ c)).reverse ∧
      ((cs.reverse.dropWhile (· ≠ c)).reverse = [] ∨
        ∃ before, (cs.reverse.dropWhile (· ≠ c)).reverse = before ++ [c]) := by
  refine ⟨?_, ?_, ?_⟩
  · rw [← List.reverse_append, List.takeWhile_append_dropWhile, List.reverse_reverse]
  · intro hmem
    have hne := List.mem_takeWhile_imp (List.mem_reverse.mp hmem)
    simp at hne
  · generalize hdropped : cs.reverse.dropWhile (· ≠ c) = dropped
    cases dropped with
    | nil => exact .inl rfl
    | cons d ds =>
        have hhead := List.head_dropWhile_not (fun d : Char => decide (d ≠ c)) (l := cs.reverse)
          (by rw [hdropped]; exact List.cons_ne_nil _ _)
        simp only [hdropped, List.head_cons] at hhead
        obtain rfl : d = c := by simpa using hhead
        exact .inr ⟨ds.reverse, List.reverse_cons⟩

/-! ## A front and a name -/

def IsFront (front : List Char) : Prop := front = [] ∨ ∃ xs, front = xs ++ ['/']

structure Ends (p : Path) (front : List Char) (name : String) : Prop where
  text : p.text.toList = front ++ name.toList
  front : IsFront front
  slash : '/' ∉ name.toList
  nonempty : name.toList ≠ []

theorem cut_front {front last : List Char} (hf : IsFront front) (hslash : '/' ∉ last) (hne : last ≠ []) :
    (cutAtSlashes (front ++ last)).filter (· ≠ []) = (cutAtSlashes front).filter (· ≠ []) ++ [last] := by
  rcases hf with rfl | ⟨xs, rfl⟩
  · simp [cutAtSlashes_of_not_mem hslash, cutAtSlashes, hne]
  · rw [List.append_assoc, List.singleton_append, cutAtSlashes_append_slash, cutAtSlashes_append_slash,
      cutAtSlashes_of_not_mem hslash]
    simp [cutAtSlashes, hne]

namespace Ends

variable {p q : Path} {front : List Char} {name name' : String}

theorem names_eq (h : p.Ends front name) :
    p.names = ((cutAtSlashes front).filter (· ≠ [])).map String.ofList ++ [name] := by
  unfold names
  rw [h.text, cut_front h.front h.slash h.nonempty, List.map_append, List.map_singleton,
    String.ofList_toList]

theorem getLast?_names (h : p.Ends front name) : p.names.getLast? = some name := by
  rw [h.names_eq, List.getLast?_concat]

theorem dropLast_names (h : p.Ends front name) (h' : q.Ends front name') :
    q.names.dropLast = p.names.dropLast := by
  rw [h.names_eq, h'.names_eq, List.dropLast_concat, List.dropLast_concat]

theorem isAbsolute_eq (h : p.Ends front name) (h' : q.Ends front name') : q.isAbsolute = p.isAbsolute := by
  have head (r : Path) (last : String) (hr : r.Ends front last) :
      r.isAbsolute = decide (front.head? = some '/') := by
    unfold isAbsolute
    rw [hr.text]
    cases front with
    | cons c front => simp
    | nil =>
        obtain ⟨c, cs, hcs⟩ := List.exists_cons_of_ne_nil hr.nonempty
        have hc : c ≠ '/' := fun e => hr.slash (by simp [hcs, e])
        simp [hcs, hc]
  rw [head p name h, head q name' h']

theorem beforeLast_eq (h : p.Ends front name) : beforeLast p.text.toList = front := by
  have hname : ∀ c ∈ name.toList.reverse, decide (c ≠ '/') = true := by
    intro c hc
    have hne : c ≠ '/' := fun e => h.slash (e ▸ List.mem_reverse.mp hc)
    simp [hne]
  have hdrop : front.reverse.dropWhile (fun c => decide (c ≠ '/')) = front.reverse := by
    rcases h.front with rfl | ⟨xs, rfl⟩
    · rfl
    · simp
  rw [beforeLast, h.text, List.reverse_append, List.dropWhile_append_of_pos hname, hdrop,
    List.reverse_reverse]

theorem trimEnd_eq (h : p.Ends front name) (hdot : name ≠ ".") (steps : ℕ) :
    trimEnd steps p.text.toList = p.text.toList := by
  cases steps with
  | zero => rfl
  | succ steps =>
      obtain ⟨cs, c, hcs⟩ := List.eq_nil_or_concat name.toList |>.resolve_left h.nonempty
      have hreverse : p.text.toList.reverse = c :: (cs.reverse ++ front.reverse) := by
        rw [h.text, hcs]
        simp
      have hmem : ∀ d ∈ c :: cs.reverse, d ≠ '/' := by
        intro d hd e
        apply h.slash
        rw [hcs, ← e]
        simpa [or_comm] using hd
      have hc : c ≠ '/' := hmem c List.mem_cons_self
      unfold trimEnd
      rw [hreverse]
      split
      · next heq => exact absurd (List.cons.inj heq).1 hc
      · next heq =>
          obtain ⟨rfl, hrest⟩ := List.cons.inj heq
          cases hcs' : cs.reverse with
          | nil =>
              have hname : name.toList = ".".toList := by
                rw [hcs, List.reverse_eq_nil_iff.mp hcs']
                rfl
              exact absurd (String.toList_inj.mp hname) hdot
          | cons d ds =>
              rw [hcs'] at hrest hmem
              exact absurd (List.cons.inj hrest).1 (hmem d (by simp))
      · rfl

theorem ne_dot_of_isEntryName {name : String} (h : isEntryName name = true) : name ≠ "." := by
  rintro rfl
  exact absurd h (by decide)

theorem fileName?_eq (h : p.Ends front name) (hname : isEntryName name = true) : p.fileName? = some name := by
  have hdot : name ≠ "." := ne_dot_of_isEntryName hname
  have hlast : p.parts.getLast? = some name := by
    unfold parts
    have hnames := h.names_eq
    generalize ((cutAtSlashes front).filter (· ≠ [])).map String.ofList = above at hnames
    rw [hnames]
    cases above with
    | nil => simp [hdot]
    | cons first rest => simp [hdot, List.getLast?_append]
  rw [fileName?, hlast]
  simp [hname]

end Ends

/-- A path whose last name is that of an entry, and that does not end in a slash, ends in that name. -/
theorem exists_ends {p : Path} {name : String} (hslash : p.endsInSlash = false)
    (hlast : p.names.getLast? = some name) : ∃ front, p.Ends front name := by
  obtain ⟨hsplit, hpart, hfront⟩ := split_at_last '/' p.text.toList
  change IsFront (beforeLast p.text.toList) at hfront
  change beforeLast p.text.toList ++ _ = _ at hsplit
  generalize (p.text.toList.reverse.takeWhile (· ≠ '/')).reverse = last at hsplit hpart
  have hne : last ≠ [] := by
    rintro rfl
    rw [List.append_nil] at hsplit
    rcases hfront with hnil | ⟨xs, hxs⟩
    · rw [hsplit] at hnil
      rw [names, hnil] at hlast
      cases hlast
    · rw [hsplit] at hxs
      rw [endsInSlash, hxs] at hslash
      simp at hslash
  have hends : p.Ends (beforeLast p.text.toList) (String.ofList last) :=
    ⟨by rw [String.toList_ofList]; exact hsplit.symm, hfront, by rwa [String.toList_ofList],
      by rwa [String.toList_ofList]⟩
  obtain rfl : String.ofList last = name := Option.some.inj (hends.getLast?_names.symm.trans hlast)
  exact ⟨_, hends⟩

/-! ## Extensions -/

theorem splitName_cases (cs : List Char) : splitName cs = (cs, none) ∨
    ∃ before ending, before ≠ [] ∧ cs = before ++ '.' :: ending ∧ splitName cs = (before, some ending) := by
  obtain ⟨hsplit, -, hfront⟩ := split_at_last '.' cs
  unfold splitName
  generalize (cs.reverse.takeWhile (· ≠ '.')).reverse = ending at hsplit
  rcases hfront with hnil | ⟨before, hbefore⟩
  · rw [hnil, List.nil_append] at hsplit
    simp [hsplit]
  · rw [hbefore, List.append_assoc, List.singleton_append] at hsplit
    have htake : cs.take (cs.length - ending.length - 1) = before := by
      have hlength : cs.length - ending.length - 1 = before.length := by
        rw [← hsplit]
        simp
        omega
      rw [hlength, ← hsplit, List.take_left]
    dsimp only
    rw [htake]
    by_cases hempty : before = []
    · simp [hempty]
    · refine .inr ⟨before, ending, hempty, hsplit.symm, ?_⟩
      have hlength : ending.length ≠ cs.length := by
        rw [← hsplit]
        simp
        omega
      simp only [hlength, hempty, or_self, if_false]

theorem stem_toList (name : String) : (stem name).toList = (splitName name.toList).1 := String.toList_ofList

theorem stem_spec {name : String} (hne : name.toList ≠ []) :
    (stem name).toList ≠ [] ∧ ∃ rest, name.toList = (stem name).toList ++ rest := by
  rw [stem_toList]
  rcases splitName_cases name.toList with h | ⟨before, ending, hbefore, hname, h⟩
  · rw [h]
    exact ⟨hne, [], by simp⟩
  · rw [h]
    exact ⟨hbefore, _, hname⟩

theorem stem_append_eq_iff (name extension : String) :
    stem name ++ "." ++ extension = name ↔ (splitName name.toList).2 = some extension.toList := by
  have hdot : ".".toList = ['.'] := rfl
  rw [← String.toList_inj, String.toList_append, String.toList_append, stem_toList, hdot]
  rcases splitName_cases name.toList with h | ⟨before, ending, -, hname, h⟩
  · simp [h]
  · rw [h, hname]
    simp [eq_comm]

section Extension

variable {p : Path} {front : List Char} {name : String}

theorem Ends.withExtension (h : p.Ends front name) (hname : isEntryName name = true) {extension : String}
    (hextension : '/' ∉ extension.toList) :
    (p.withExtension extension).Ends front (stem name ++ "." ++ extension) := by
  have hdot : name ≠ "." := ne_dot_of_isEntryName hname
  obtain ⟨hstem, rest, hrest⟩ := stem_spec h.nonempty
  have hslash : '/' ∉ (stem name).toList := by
    intro hmem
    apply h.slash
    rw [hrest]
    exact List.mem_append_left _ hmem
  have htext : (p.withExtension extension).text =
      String.ofList front ++ stem name ++ "." ++ extension := by
    unfold Path.withExtension
    simp only [h.fileName?_eq hname, h.trimEnd_eq hdot, h.beforeLast_eq]
  have hpoint : ".".toList = ['.'] := rfl
  refine ⟨?_, h.front, ?_, ?_⟩
  · rw [htext]
    simp [String.toList_append]
  · simp [String.toList_append, hpoint, hslash, hextension]
  · simp [String.toList_append, hpoint]

theorem Ends.sister_name_eq_iff (h : p.Ends front name) (hname : isEntryName name = true)
    (extension : String) :
    stem name ++ "." ++ extension = name ↔ p.extension? = some extension := by
  rw [stem_append_eq_iff]
  unfold extension?
  simp only [h.fileName?_eq hname, Option.bind_eq_bind, Option.bind_some]
  cases (splitName name.toList).2 with
  | none => simp
  | some ending =>
      simp only [Option.bind_some, Option.some.injEq]
      rw [← String.toList_inj, String.toList_ofList]

end Extension

end WorkloadSynth.Path
