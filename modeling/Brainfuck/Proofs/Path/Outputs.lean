import Brainfuck.Path
import Mathlib.Data.List.TakeDrop

/-!
# The two output paths

The Go text and the executable for one output path are written to different places.  One
path is found by appending the extension of Go files and the other by taking it off, and
both change only what stands behind the last slash.

* `Path.exists_front` — a path text as what stands up to its last slash and its last
  segment.
* `Path.toList_executable`, `Path.executable_of_no_extension` — the path of the executable: the
  stem of a name with the extension of Go files, and any other path as it is.
* `Path.executable_goFile` — it is the path that the Go file was named after.
* `Path.executable_ne_goFile` — the two paths are different texts.
* `Path.outputs` — they differ only in their last segments, which are different unless the
  Go file has one that names nothing.
-/

namespace Brainfuck.Path

variable {p s t name : List Char}

/-! ## Segments -/

theorem segments_ne_nil (p : List Char) : segments p ≠ [] := by
  cases p with
  | nil => simp [segments]
  | cons c cs =>
      rw [segments]
      split
      · simp
      · split <;> simp

theorem segments_of_no_slash (h : '/' ∉ s) : segments s = [s] := by
  induction s with
  | nil => rfl
  | cons c cs ih =>
      have hc : c ≠ '/' := fun hc => h (by simp [hc])
      have hcs : '/' ∉ cs := fun hcs => h (by simp [hcs])
      rw [segments, if_neg hc, ih hcs]

theorem join_cons_cons (s s' : List Char) (segs : List (List Char)) :
    join (s :: s' :: segs) = s ++ '/' :: join (s' :: segs) := rfl

/-- With one more slash behind it, a text is its segments with a slash behind each. -/
theorem join_append_slash {segs : List (List Char)} (h : segs ≠ []) :
    join segs ++ ['/'] = segs.flatMap (· ++ ['/']) := by
  induction segs with
  | nil => exact absurd rfl h
  | cons s segs ih =>
      cases segs with
      | nil => simp [join]
      | cons s' segs =>
          have hrest := ih (by simp)
          rw [List.flatMap_cons, ← hrest, join_cons_cons]
          simp

theorem join_segments (p : List Char) : join (segments p) = p := by
  induction p with
  | nil => rfl
  | cons c cs ih =>
      rw [segments]
      obtain ⟨s, segs, hsegs⟩ := List.exists_cons_of_ne_nil (segments_ne_nil cs)
      rw [hsegs] at ih ⊢
      split
      · rename_i hc
        rw [join_cons_cons, ih, hc]
        rfl
      · cases segs with
        | nil => simpa [join] using ih
        | cons s' segs =>
            rw [join_cons_cons] at ih
            simp only [join_cons_cons, List.cons_append, ih]

/-- `front` is a path text up to and with a slash, or empty, and `parents` are the segments
in front of that slash. -/
def Fronts (front : List Char) (parents : List (List Char)) : Prop :=
  ∀ s, '/' ∉ s → segments (front ++ s) = parents ++ [s]

theorem Fronts.join {front : List Char} {parents : List (List Char)} (h : Fronts front parents)
    (hs : '/' ∉ s) : join (parents ++ [s]) = front ++ s := by
  rw [← h s hs, join_segments]

/-- A path text can be cut in front of its last segment. -/
theorem exists_front (p : List Char) :
    ∃ front parents last, p = front ++ last ∧ '/' ∉ last ∧ Fronts front parents := by
  induction p with
  | nil => exact ⟨[], [], [], rfl, by simp, fun s hs => segments_of_no_slash hs⟩
  | cons c cs ih =>
      obtain ⟨front, parents, last, rfl, hlast, hfront⟩ := ih
      by_cases hc : c = '/'
      · refine ⟨c :: front, [] :: parents, last, rfl, hlast, fun s hs => ?_⟩
        rw [List.cons_append, segments, if_pos hc, hfront s hs, List.cons_append]
      · cases parents with
        | nil =>
            -- there is no slash at all
            have hempty : front = [] := by
              have hjoin := hfront.join hlast
              simpa [Path.join] using hjoin
            subst hempty
            refine ⟨[], [], c :: last, rfl, ?_, fun s hs => segments_of_no_slash hs⟩
            simp [hlast, Ne.symm hc]
        | cons parent parents =>
            refine ⟨c :: front, (c :: parent) :: parents, last, rfl, hlast, fun s hs => ?_⟩
            rw [List.cons_append, segments, if_neg hc, hfront s hs, List.cons_append]
            rfl

/-! ## Stems and extensions -/

theorem splitName?_append (hname : s ≠ []) (ht : '.' ∉ t) :
    splitName? (s ++ '.' :: t) = some (s, t) := by
  obtain ⟨c, cs, hcs⟩ := List.exists_cons_of_ne_nil (List.reverse_ne_nil_iff.2 hname)
  have hspan : (s ++ '.' :: t).reverse.span (· ≠ '.') = (t.reverse, '.' :: s.reverse) := by
    have hall : ∀ c ∈ t.reverse, decide (c ≠ '.') = true := by
      intro c hc
      have hne : c ≠ '.' := by
        rintro rfl
        exact ht (List.mem_reverse.1 hc)
      simp [hne]
    rw [List.span_eq_takeWhile_dropWhile]
    simp only [List.reverse_append, List.reverse_cons, List.append_assoc, List.singleton_append]
    rw [List.takeWhile_append_of_pos hall, List.dropWhile_append_of_pos hall]
    simp
  have hback : cs.reverse ++ [c] = s := by rw [← List.reverse_cons, ← hcs, List.reverse_reverse]
  rw [splitName?, hspan, hcs]
  simp [hback]

/-- A name that has an extension is its stem, a dot and the extension. -/
theorem eq_of_splitName? (h : splitName? name = some (s, t)) : name = s ++ '.' :: t ∧ s ≠ [] := by
  have hname := List.takeWhile_append_dropWhile (p := (· ≠ '.')) (l := name.reverse)
  have hdot := List.head?_dropWhile_not (· ≠ '.') name.reverse
  rw [splitName?, List.span_eq_takeWhile_dropWhile] at h
  generalize name.reverse.takeWhile (· ≠ '.') = front at h hname
  generalize name.reverse.dropWhile (· ≠ '.') = rest at h hname hdot
  cases rest with
  | nil => cases h
  | cons d rest =>
      cases rest with
      | nil => cases h
      | cons c rest =>
          cases h
          have hd : d = '.' := by simpa using hdot
          refine ⟨?_, by simp⟩
          rw [← List.reverse_reverse name, ← hname, hd]
          simp

theorem length_stem_le (name : List Char) : (stem name).length ≤ name.length := by
  unfold stem
  split
  · rename_i hsplit
    rw [(eq_of_splitName? hsplit).1]
    simp
  · exact Nat.le_refl _

/-- A path is not made longer by ending it behind its stem. -/
theorem length_upToStem_le (p : List Char) : (upToStem p).length ≤ p.length := by
  unfold upToStem
  split
  · exact Nat.le_refl _
  · rename_i s parents hnamed
    split
    · exact Nat.le_refl _
    · have hstem := length_stem_le s
      obtain ⟨idle, hsegs⟩ : ∃ idle, segments p = parents.reverse ++ s :: idle := by
        have hreverse := List.takeWhile_append_dropWhile (p := isIdle) (l := (segments p).reverse)
        rw [← namedReverse, hnamed] at hreverse
        exact ⟨_, by simpa using (congrArg List.reverse hreverse).symm⟩
      have hp := join_append_slash (segments_ne_nil p)
      have hjoin : join (parents.reverse ++ [stem s]) ++ ['/'] = _ := join_append_slash (by simp)
      rw [join_segments, hsegs] at hp
      have hlength := congrArg List.length hp
      have hlength' := congrArg List.length hjoin
      simp only [List.flatMap_append, List.flatMap_cons, List.flatMap_nil, List.length_append,
        List.length_singleton, List.length_nil] at hlength hlength'
      rw [List.reverse_cons]
      omega

theorem extension?_eq_some_iff :
    extension? p = some t ↔ ∃ name s, name? p = some name ∧ splitName? name = some (s, t) := by
  unfold extension?
  cases hname : name? p with
  | none => simp
  | some name =>
      cases hsplit : splitName? name with
      | none => simp [hsplit]
      | some r =>
          obtain ⟨s, ext⟩ := r
          simp [hsplit, eq_comm]

/-! ## The last segment -/

section Last

variable {front last : List Char} {parents : List (List Char)}

theorem namedReverse_front (hfront : Fronts front parents) (hs : '/' ∉ s)
    (hidle : isIdle s = false) : namedReverse (front ++ s) = s :: parents.reverse := by
  rw [namedReverse, hfront s hs, List.reverse_append, List.reverse_singleton,
    List.singleton_append, List.dropWhile_cons_of_neg (by simp [hidle])]

theorem exists_stem (hfront : Fronts front parents) (hlast : '/' ∉ last)
    (hidle : isIdle last = false) (h : extension? (front ++ last) = some t) :
    ∃ s, s ≠ [] ∧ last = s ++ '.' :: t := by
  obtain ⟨name, s, hname, hsplit⟩ := extension?_eq_some_iff.1 h
  rw [name?, namedReverse_front hfront hlast hidle] at hname
  dsimp only at hname
  split at hname
  · cases hname
  · cases hname
    exact ⟨s, (eq_of_splitName? hsplit).2, (eq_of_splitName? hsplit).1⟩

/-- Only the last segment changes when an extension is taken off it. -/
theorem dropExtension_front (hfront : Fronts front parents) (hs : '/' ∉ s) (hne : s ≠ []) :
    dropExtension (front ++ (s ++ '.' :: t)) t =
      front ++ (if s = ['.'] then ['.', '.'] else s) := by
  have htake : (front ++ (s ++ '.' :: t)).take ((front ++ (s ++ '.' :: t)).length - t.length) =
      front ++ (s ++ ['.']) := by
    have hsplit : front ++ (s ++ '.' :: t) = (front ++ (s ++ ['.'])) ++ t := by simp
    rw [hsplit, List.length_append, Nat.add_sub_cancel, List.take_left]
  have hdot : '/' ∉ s ++ ['.'] := by simp [hs]
  have hidle : isIdle (s ++ ['.']) = false := by
    cases s with
    | nil => exact absurd rfl hne
    | cons c cs => cases cs <;> simp [isIdle]
  rw [dropExtension, htake, upToStem, namedReverse_front hfront hdot hidle]
  dsimp only
  by_cases hparent : s = ['.']
  · simp [hparent]
  · have hup : s ++ ['.'] ≠ ['.', '.'] := by
      intro heq
      have happend : s ++ ['.'] = ['.'] ++ ['.'] := heq
      exact hparent (List.append_cancel_right happend)
    rw [if_neg hup, if_neg hparent, stem, splitName?_append hne (by simp)]
    simp only [List.reverse_cons, List.reverse_reverse]
    exact hfront.join hs

end Last

/-! ## The extension of Go files -/

section Extension

variable {out : String} {front last : List Char} {parents : List (List Char)}

theorem append_go_ne_parent (s : List Char) : s ++ '.' :: goExtension ≠ ['.', '.'] := by
  intro heq
  have hlength := congrArg List.length heq
  simp [goExtension] at hlength

theorem goFile_of_extension (h : extension? out.toList = some goExtension) : goFile out = out :=
  if_pos h

theorem goFile_of_no_extension (h : extension? out.toList ≠ some goExtension) :
    goFile out = out ++ ".go" :=
  if_neg h

/-- A path text with the extension appended ends in its last segment with the extension appended. -/
theorem toList_append_go (hout : out.toList = front ++ s) :
    (out ++ ".go").toList = front ++ (s ++ '.' :: goExtension) := by
  simp [hout, goExtension]

theorem slash_notMem_append_go (h : '/' ∉ s) : '/' ∉ s ++ '.' :: goExtension := by
  simp [h, goExtension]

theorem isIdle_append_go (s : List Char) : isIdle (s ++ '.' :: goExtension) = false := by
  cases s with
  | nil => rfl
  | cons c cs => cases cs <;> simp [isIdle]

theorem name?_append_go (hfront : Fronts front parents) (hs : '/' ∉ s) :
    name? (front ++ (s ++ '.' :: goExtension)) = some (s ++ '.' :: goExtension) := by
  rw [name?, namedReverse_front hfront (slash_notMem_append_go hs) (isIdle_append_go s)]
  exact if_neg (append_go_ne_parent s)

/-- The extension is found again where it was appended to something. -/
theorem extension?_append_go (hfront : Fronts front parents) (hs : '/' ∉ s) (hne : s ≠ []) :
    extension? (front ++ (s ++ '.' :: goExtension)) = some goExtension := by
  rw [extension?_eq_some_iff]
  exact ⟨_, s, name?_append_go hfront hs, splitName?_append hne (by decide)⟩

theorem executable_of_no_extension (h : extension? out.toList ≠ some goExtension) :
    executable out = out :=
  if_neg h

/-- The executable for a path with the extension of Go files has the stem of its name; behind the
stem `.` the path goes up. -/
theorem toList_executable (hfront : Fronts front parents) (hs : '/' ∉ s) (hne : s ≠ [])
    (hout : out.toList = front ++ (s ++ '.' :: goExtension)) :
    (executable out).toList = front ++ (if s = ['.'] then ['.', '.'] else s) := by
  have hext : extension? out.toList = some goExtension := by
    rw [hout, extension?_append_go hfront hs hne]
  rw [executable, if_pos hext, String.toList_ofList, hout, dropExtension_front hfront hs hne]

/-- The executable for the Go file of a path is the path, if its last segment can be named with the
extension. -/
theorem executable_goFile (hfront : Fronts front parents) (hlast : '/' ∉ last) (hne : last ≠ [])
    (hself : last ≠ ['.']) (hout : out.toList = front ++ last)
    (hext : extension? out.toList ≠ some goExtension) : executable (goFile out) = out := by
  rw [goFile_of_no_extension hext, ← String.toList_inj,
    toList_executable hfront hlast hne (toList_append_go hout), if_neg hself, hout]

end Extension

/-! ## What the outputs are called -/

/-- The executable is not built over the Go text. -/
theorem executable_ne_goFile (out : String) : executable out ≠ goFile out := by
  unfold executable goFile
  split
  · rename_i hext
    intro heq
    have hempty : out.toList ≠ [] := by
      intro hnil
      rw [hnil] at hext
      cases hext
    have hlength := List.length_pos_iff.2 hempty
    have hle := length_upToStem_le (out.toList.take (out.toList.length - goExtension.length))
    have hlist : dropExtension out.toList goExtension = out.toList := by
      have htext := congrArg String.toList heq
      rwa [String.toList_ofList] at htext
    rw [← dropExtension, hlist, List.length_take] at hle
    have hgo : goExtension.length = 2 := rfl
    omega
  · intro heq
    have hlist := congrArg (·.toList.length) heq
    simp at hlist

/-- Output paths differ in their last segments only.  That of the Go file names something,
unless it is one of a directory, and that of the executable names something else. -/
theorem outputs (out : String) :
    ∃ front parents s, '/' ∉ s ∧ Fronts front parents ∧ (goFile out).toList = front ++ s ∧
      (isIdle s = false → s ≠ ['.', '.'] ∧
        ∃ t, '/' ∉ t ∧ t ≠ s ∧ (executable out).toList = front ++ t) := by
  obtain ⟨front, parents, last, hout, hlast, hfront⟩ := exists_front out.toList
  unfold goFile
  split
  · rename_i hext
    refine ⟨front, parents, last, hlast, hfront, hout, fun hidle => ?_⟩
    rw [hout] at hext
    obtain ⟨s, hne, rfl⟩ := exists_stem hfront hlast hidle hext
    have hs : '/' ∉ s := fun h => hlast (List.mem_append_left _ h)
    refine ⟨append_go_ne_parent s, if s = ['.'] then ['.', '.'] else s, ?_, ?_, ?_⟩
    · split
      · simp
      · exact hs
    · split
      · rename_i h
        simp [h, goExtension]
      · simp
    · exact toList_executable hfront hs hne hout
  · rename_i hext
    refine ⟨front, parents, last ++ '.' :: goExtension, ?_, hfront, ?_, fun _ => ?_⟩
    · exact slash_notMem_append_go hlast
    · exact toList_append_go hout
    · rw [executable_of_no_extension hext]
      exact ⟨append_go_ne_parent last, last, hlast, by simp, hout⟩

end Brainfuck.Path
