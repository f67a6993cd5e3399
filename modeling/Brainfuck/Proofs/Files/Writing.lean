import Brainfuck.Files
import Brainfuck.Proofs.Fallible
import Brainfuck.Proofs.Path.Outputs

/-!
# What is written is read back

A file that is written stands where its path leads, and everything else stays as it was.

* `Files.walk_of_keeps` — a path leads to the same place as long as the directories it
  leads through are still there.
* `Files.follow_of_target` — a file is written at the place its path leads to.
* `Files.read_of_write` — it is read back from the same path.
* `Files.read_of_write_elsewhere` — a path that leads elsewhere reads what it read before.
* `Files.follow_executable_ne` — the executable for an output path and its Go text stand at
  different places.
-/

namespace Brainfuck.Files

variable {fs fs' : Files} {cwd here there place : Location} {path other : String}
  {content : List UInt8} {e : Entry}

/-! ## Entries -/

theorem lookup_filter_ne (entries : List (Location × Entry)) (there place : Location) :
    (entries.filter fun p => p.1 != place).lookup there =
      if there = place then none else entries.lookup there := by
  induction entries with
  | nil => simp
  | cons p entries ih =>
      by_cases hp : p.1 = place
      · have hfilter : ¬ (p.1 != place) = true := by simp [hp]
        rw [List.filter_cons, if_neg hfilter, ih, List.lookup_cons, hp]
        by_cases h : there = place
        · rw [if_pos h, if_pos h]
        · rw [if_neg h, if_neg h, beq_false_of_ne h]
      · have hfilter : (p.1 != place) = true := by simp [hp]
        rw [List.filter_cons, if_pos hfilter, List.lookup_cons, List.lookup_cons, ih]
        by_cases h : there = place
        · rw [if_pos h, if_pos h, h, beq_false_of_ne (Ne.symm hp)]
        · rw [if_neg h, if_neg h]

theorem entry?_put_self (h : place ≠ []) : Files.entry? (fs.put place e) place = some e := by
  unfold entry?
  rw [if_neg h, put, List.lookup_append, lookup_filter_ne, if_pos rfl, List.lookup_cons,
    beq_self_eq_true, Option.none_or]

theorem entry?_put_of_ne (h : there ≠ place) :
    Files.entry? (fs.put place e) there = fs.entry? there := by
  unfold entry?
  split
  · rfl
  · rw [put, List.lookup_append, lookup_filter_ne, if_neg h, List.lookup_cons,
      beq_false_of_ne h, List.lookup_nil, Option.or_none]

/-! ## Ways -/

/-- Every directory of `fs` is one of `fs'`. -/
def Keeps (fs fs' : Files) : Prop :=
  ∀ l, fs.entry? l = some .directory → fs'.entry? l = some .directory

/-- Putting something where there is no directory takes no directory away. -/
theorem keeps_put (h : fs.entry? place ≠ some .directory) : fs.Keeps (fs.put place e) := by
  intro l hl
  have hne : l ≠ place := by
    rintro rfl
    exact h hl
  rw [entry?_put_of_ne hne, hl]

theorem stepInto_eq_ok_iff {segment : String} :
    fs.stepInto here segment = .ok there ↔
      fs.entry? here = some .directory ∧
        if segment = "" ∨ segment = "." then there = here
        else if segment = ".." then there = here.dropLast
        else segment.utf8ByteSize ≤ nameLimit ∧ there = here ++ [segment] := by
  unfold stepInto
  cases fs.entry? here with
  | none => simp
  | some entry =>
      cases entry with
      | file content => simp
      | directory =>
          simp only [true_and]
          split
          · simp [eq_comm]
          · split
            · simp [eq_comm]
            · split
              · simp
                omega
              · simp [eq_comm]
                omega

theorem walk_cons_eq_ok_iff {segment : String} {rest : List String} :
    fs.walk here (segment :: rest) = .ok there ↔
      ∃ next, fs.stepInto here segment = .ok next ∧ fs.walk next rest = .ok there :=
  Except.bind_eq_ok_iff

theorem walk_append_eq_ok_iff {front back : List String} :
    fs.walk here (front ++ back) = .ok there ↔
      ∃ between, fs.walk here front = .ok between ∧ fs.walk between back = .ok there := by
  induction front generalizing here with
  | nil => simp [walk]
  | cons segment front ih =>
      simp only [List.cons_append, walk_cons_eq_ok_iff, ih]
      grind

theorem walk_singleton {segment : String} :
    fs.walk here [segment] = fs.stepInto here segment := by
  rw [walk]
  cases fs.stepInto here segment <;> rfl

/-- A way leads to the same place as long as its directories are kept. -/
theorem walk_of_keeps (hkeeps : fs.Keeps fs') {parts : List String}
    (h : fs.walk here parts = .ok there) : fs'.walk here parts = .ok there := by
  induction parts generalizing here with
  | nil => exact h
  | cons segment rest ih =>
      obtain ⟨next, hstep, hrest⟩ := walk_cons_eq_ok_iff.1 h
      obtain ⟨hhere, hnext⟩ := stepInto_eq_ok_iff.1 hstep
      exact walk_cons_eq_ok_iff.2 ⟨next, stepInto_eq_ok_iff.2 ⟨hkeeps here hhere, hnext⟩, ih hrest⟩

theorem follow_eq_ok_iff :
    fs.follow cwd path = .ok place ↔
      checkPath path = .ok () ∧ fs.walk (origin cwd path) (segments path) = .ok place := by
  rw [follow, Except.bind_eq_ok_iff]
  exact ⟨fun ⟨(), h⟩ => h, fun h => ⟨(), h⟩⟩

theorem follow_of_keeps (hkeeps : fs.Keeps fs') (h : fs.follow cwd path = .ok place) :
    fs'.follow cwd path = .ok place := by
  obtain ⟨hcheck, hwalk⟩ := follow_eq_ok_iff.1 h
  exact follow_eq_ok_iff.2 ⟨hcheck, walk_of_keeps hkeeps hwalk⟩

/-! ## Reading and writing -/

theorem read_eq_ok_iff :
    fs.read cwd path = .ok content ↔
      ∃ place, fs.follow cwd path = .ok place ∧ fs.entry? place = some (.file content) := by
  rw [read, Except.bind_eq_ok_iff]
  refine exists_congr fun place => and_congr_right fun _ => ?_
  cases fs.entry? place with
  | none => simp
  | some entry => cases entry <;> simp [pure, Except.pure]

theorem write_eq_ok_iff :
    fs.write cwd path content = .ok fs' ↔
      ∃ place, fs.target cwd path = .ok place ∧ fs' = fs.put place (.file content) := by
  rw [write, Except.bind_eq_ok_iff]
  simp [pure, Except.pure, eq_comm]

theorem exists_segments_eq (path : String) : ∃ front last, segments path = front ++ [last] := by
  have hne : segments path ≠ [] := by
    rw [segments, Ne, List.map_eq_nil_iff]
    exact Path.segments_ne_nil path.toList
  exact ⟨_, _, (List.dropLast_concat_getLast hne).symm⟩

theorem stepInto_dot : fs.stepInto here "." = .ok there ↔
    fs.entry? here = some .directory ∧ there = here := by
  simp [stepInto_eq_ok_iff]

/-- A path that can be written ends in a segment behind a directory, which leads to a place
where no directory is. -/
theorem target_eq_ok (h : fs.target cwd path = .ok place) :
    ∃ front last parent, segments path = front ++ [last] ∧ checkPath path = .ok () ∧
      fs.walk (origin cwd path) front = .ok parent ∧ fs.stepInto parent last = .ok place ∧
      fs.entry? place ≠ some .directory := by
  obtain ⟨⟨⟩, hcheck, h⟩ := Except.bind_eq_ok_iff.1 h
  obtain ⟨parent, hparent, h⟩ := Except.bind_eq_ok_iff.1 h
  obtain ⟨front, last, hparts⟩ := exists_segments_eq path
  split at h
  · cases h
  · rename_i hlength
    obtain ⟨there, hplace, h⟩ := Except.bind_eq_ok_iff.1 h
    split at h
    · cases h
    · rename_i hentry
      cases h
      -- nothing has been dropped from the end of the segments
      have hnamed : ((segments path).reverse.dropWhile (· = "")).reverse = segments path := by
        have hsuffix := List.dropWhile_suffix (· = "") (l := (segments path).reverse)
        have heq := hsuffix.eq_of_length_le (by simpa using hlength)
        rw [heq, List.reverse_reverse]
      rw [hnamed, hparts, List.dropLast_concat, walk_append_eq_ok_iff] at hparent
      rw [hnamed, hparts, List.getLast?_concat, Option.toList_some, walk_singleton] at hplace
      obtain ⟨between, hfront, hdot⟩ := hparent
      rw [walk_singleton, stepInto_dot] at hdot
      obtain ⟨-, rfl⟩ := hdot
      exact ⟨front, last, parent, hparts, hcheck, hfront, hplace, hentry⟩

/-- A file is written at the place its path leads to. -/
theorem follow_of_target (h : fs.target cwd path = .ok place) :
    fs.follow cwd path = .ok place := by
  obtain ⟨front, last, parent, hparts, hcheck, hfront, hlast, -⟩ := target_eq_ok h
  rw [follow_eq_ok_iff, hparts]
  exact ⟨hcheck, walk_append_eq_ok_iff.2 ⟨parent, hfront, by rwa [walk_singleton]⟩⟩

theorem keeps_write (h : fs.write cwd path content = .ok fs') : fs.Keeps fs' := by
  obtain ⟨place, htarget, rfl⟩ := write_eq_ok_iff.1 h
  obtain ⟨-, -, -, -, -, -, -, hplace⟩ := target_eq_ok htarget
  exact keeps_put hplace

/-- What is written is read back. -/
theorem read_of_write (h : fs.write cwd path content = .ok fs') :
    fs'.read cwd path = .ok content := by
  have hkeeps := keeps_write h
  obtain ⟨place, htarget, rfl⟩ := write_eq_ok_iff.1 h
  obtain ⟨-, -, -, -, -, -, -, hplace⟩ := target_eq_ok htarget
  refine read_eq_ok_iff.2 ⟨place, follow_of_keeps hkeeps (follow_of_target htarget), ?_⟩
  apply entry?_put_self
  rintro rfl
  exact hplace rfl

/-- A path that leads elsewhere reads what it read before. -/
theorem read_of_write_elsewhere (h : fs.write cwd path content = .ok fs')
    (helsewhere : fs.follow cwd other ≠ fs.follow cwd path) {old : List UInt8}
    (hold : fs.read cwd other = .ok old) : fs'.read cwd other = .ok old := by
  have hkeeps := keeps_write h
  obtain ⟨place, htarget, rfl⟩ := write_eq_ok_iff.1 h
  obtain ⟨there, hfollow, hentry⟩ := read_eq_ok_iff.1 hold
  have hne : there ≠ place := by
    rintro rfl
    exact helsewhere (hfollow.trans (follow_of_target htarget).symm)
  refine read_eq_ok_iff.2 ⟨there, follow_of_keeps hkeeps hfollow, ?_⟩
  rw [entry?_put_of_ne hne, hentry]

/-! ## The outputs of a build -/

/-- Whatever stands behind the last slash, a path starts at the same directory. -/
theorem origin_front {front s t : List Char} (hs : '/' ∉ s) (ht : '/' ∉ t)
    (hpath : path.toList = front ++ s) (hother : other.toList = front ++ t) :
    origin cwd path = origin cwd other := by
  have hhead {r : List Char} (hr : '/' ∉ r) : r.head? ≠ some '/' := by
    intro h
    exact hr (List.mem_of_mem_head? h)
  unfold origin
  rw [hpath, hother]
  cases front with
  | nil => rw [List.nil_append, List.nil_append, if_neg (hhead hs), if_neg (hhead ht)]
  | cons c front => rfl

theorem segments_front {front s : List Char} {parents : List (List Char)}
    (hfront : Path.Fronts front parents) (hs : '/' ∉ s) (hpath : path.toList = front ++ s) :
    segments path = parents.map String.ofList ++ [String.ofList s] := by
  rw [segments, hpath, hfront s hs, List.map_append, List.map_singleton]

/-- A segment that names nothing leads to a directory. -/
theorem isIdle_of_stepInto {s : List Char} (h : fs.stepInto here (String.ofList s) = .ok there)
    (hthere : fs.entry? there ≠ some .directory) : Path.isIdle s = false := by
  obtain ⟨hhere, hstep⟩ := stepInto_eq_ok_iff.1 h
  cases hidle : Path.isIdle s with
  | false => rfl
  | true =>
      have hnothing : String.ofList s = "" ∨ String.ofList s = "." := by
        simp only [Path.isIdle, Bool.or_eq_true, decide_eq_true_eq] at hidle
        rcases hidle with rfl | rfl
        · exact .inl rfl
        · exact .inr rfl
      rw [if_pos hnothing] at hstep
      rw [hstep] at hthere
      exact absurd hhere hthere

/-- A segment that names something leads to the place of that name. -/
theorem eq_concat_of_stepInto {s : List Char} (h : fs.stepInto here (String.ofList s) = .ok there)
    (hidle : Path.isIdle s = false) (hup : s ≠ ['.', '.']) : there = here ++ [String.ofList s] := by
  have hne {r : List Char} (hr : s ≠ r) : String.ofList s ≠ String.ofList r := by
    intro heq
    have hlist := congrArg String.toList heq
    rw [String.toList_ofList, String.toList_ofList] at hlist
    exact hr hlist
  simp only [Path.isIdle, Bool.or_eq_false_iff, decide_eq_false_iff_not] at hidle
  have hnothing : ¬ (String.ofList s = "" ∨ String.ofList s = ".") :=
    not_or_intro (hne hidle.1) (hne hidle.2)
  obtain ⟨-, hstep⟩ := stepInto_eq_ok_iff.1 h
  rw [if_neg hnothing, if_neg (hne hup)] at hstep
  exact hstep.2

/-- No other segment leads to the place of a name. -/
theorem eq_of_stepInto_concat {segment name : String}
    (h : fs.stepInto here segment = .ok (here ++ [name])) : segment = name := by
  obtain ⟨-, hthere⟩ := stepInto_eq_ok_iff.1 h
  split at hthere
  · simp at hthere
  · split at hthere
    · have hlength := congrArg List.length hthere
      simp only [List.length_append, List.length_singleton, List.length_dropLast] at hlength
      omega
    · exact (List.singleton_inj.1 (List.append_cancel_left hthere.2)).symm

/-- Where the Go text for an output path has been written, the path of the executable does
not lead. -/
theorem follow_executable_ne (out : String)
    (h : fs.write cwd (Path.goFile out) content = .ok fs') :
    fs'.follow cwd (Path.executable out) ≠ fs'.follow cwd (Path.goFile out) := by
  have hkeeps := keeps_write h
  obtain ⟨place, htarget, -⟩ := write_eq_ok_iff.1 h
  obtain ⟨way, last, parent, hparts, -, hway, hlast, hplace⟩ := target_eq_ok htarget
  obtain ⟨front, parents, s, hs, hfront, hgo, hexe⟩ := Path.outputs out
  rw [segments_front hfront hs hgo] at hparts
  obtain ⟨rfl, hsegment⟩ := List.append_inj' hparts rfl
  obtain rfl := List.singleton_inj.1 hsegment
  have hidle := isIdle_of_stepInto hlast hplace
  obtain ⟨hup, t, ht, hne, hexe⟩ := hexe hidle
  obtain rfl := eq_concat_of_stepInto hlast hidle hup
  rw [follow_of_keeps hkeeps (follow_of_target htarget)]
  intro hfollow
  -- both paths lead to the same parent directory, and from there by different names
  obtain ⟨-, hwalk⟩ := follow_eq_ok_iff.1 hfollow
  rw [segments_front hfront ht hexe, ← origin_front hs ht hgo hexe, walk_append_eq_ok_iff] at hwalk
  obtain ⟨between, hbetween, hstep⟩ := hwalk
  have hparent := hbetween.symm.trans (walk_of_keeps hkeeps hway)
  cases hparent
  rw [walk_singleton] at hstep
  have hsame := congrArg String.toList (eq_of_stepInto_concat hstep)
  rw [String.toList_ofList, String.toList_ofList] at hsame
  exact hne hsame

end Brainfuck.Files
