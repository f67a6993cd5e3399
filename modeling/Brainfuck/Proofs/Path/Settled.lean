import Brainfuck.Proofs.Path.Outputs
import Mathlib.Data.List.Basic

/-!
# The Go file of a Go file

The extension of Go files is looked for behind the last name of a path, and where it is missing it
is appended to the whole text.  The two places are the same unless the text is empty or ends in a
slash.  There the extension that is appended makes a name of its own, a file with a dot in front and
no extension, and it would be appended again.

* `Path.goFile_eq_self_iff` — a path is its own Go file when it has the extension.
* `Path.Fronts.eq_flatMap` — what stands in front of the last segment, from the segments there.
* `Path.SettlesAtOnce` — the paths whose Go file has the extension.
* `Path.goFile_settles_iff` — the Go file of any path, and the Go file of that.
-/

namespace Brainfuck.Path

variable {out : String} {front last s : List Char} {parents : List (List Char)}

/-! ## The extension of a Go file -/

theorem goFile_eq_self_iff : goFile out = out ↔ extension? out.toList = some goExtension := by
  constructor
  · intro h
    by_contra hext
    have hlength := congrArg (·.toList.length) h
    simp [goFile_of_no_extension hext] at hlength
  · exact goFile_of_extension

theorem name?_dot_go (hfront : Fronts front parents) :
    name? (front ++ '.' :: goExtension) = some ('.' :: goExtension) :=
  name?_append_go (s := []) hfront (by simp)

/-- Appended to nothing it is a name with a dot in front. -/
theorem extension?_dot_go (hfront : Fronts front parents) :
    extension? (front ++ '.' :: goExtension) = none := by
  rw [extension?, name?_dot_go hfront]
  rfl

/-! ## The end of a path text -/

/-- What stands in front of the last segment are the segments there, with a slash behind each. -/
theorem Fronts.eq_flatMap (h : Fronts front parents) : front = parents.flatMap (· ++ ['/']) := by
  have hjoin : Path.join (parents ++ [[]]) ++ ['/'] = (parents ++ [[]]).flatMap (· ++ ['/']) :=
    join_append_slash (by simp)
  rw [h.join List.not_mem_nil, List.append_nil, List.flatMap_append] at hjoin
  exact List.append_cancel_right hjoin

/-- The last segment of a path text is empty where the text is empty or ends in a slash. -/
theorem last_eq_nil_iff (hout : out.toList = front ++ last) (hlast : '/' ∉ last)
    (hfront : Fronts front parents) :
    last = [] ↔ out = "" ∨ out.toList.getLast? = some '/' := by
  constructor
  · rintro rfl
    rw [List.append_nil, hfront.eq_flatMap] at hout
    rcases List.eq_nil_or_concat parents with rfl | ⟨init, parent, rfl⟩
    · exact .inl (String.toList_eq_nil_iff.1 hout)
    · right
      rw [hout]
      simp
  · intro h
    by_contra hne
    rcases h with rfl | hslash
    · exact hne (List.append_eq_nil_iff.1 hout.symm).2
    · rw [hout, List.getLast?_append_of_ne_nil _ hne] at hslash
      exact hlast (List.mem_of_getLast? hslash)

/-- The path has the extension of Go files, or there is something at the end of its text to append
it to. -/
def SettlesAtOnce (out : String) : Prop :=
  extension? out.toList = some goExtension ∨ (out ≠ "" ∧ out.toList.getLast? ≠ some '/')

theorem extension?_goFile_iff :
    extension? (goFile out).toList = some goExtension ↔ SettlesAtOnce out := by
  by_cases hext : extension? out.toList = some goExtension
  · rw [goFile_of_extension hext]
    exact ⟨.inl, fun _ => hext⟩
  · obtain ⟨front, parents, last, hout, hlast, hfront⟩ := exists_front out.toList
    -- what is appended to the text is appended to its last segment
    have hnil := last_eq_nil_iff hout hlast hfront
    rw [goFile_of_no_extension hext, toList_append_go hout, SettlesAtOnce, or_iff_right hext,
      ← not_or, ← hnil]
    constructor
    · rintro h rfl
      rw [List.nil_append, extension?_dot_go hfront] at h
      cases h
    · exact extension?_append_go hfront hlast

/-- **The Go file of a path is settled at once, except for paths that are like a directory.**  The
path is kept or has the extension appended.  It has the extension then, and is its own Go file,
exactly when it had the extension before or is not empty and does not end in a slash.  In all other
cases the last name is the extension with its dot and nothing else, which has no extension, and the
Go file of that has the extension appended again. -/
theorem goFile_settles_iff (out : String) :
    (goFile out = out ∨ goFile out = out ++ ".go") ∧
    (goFile (goFile out) = goFile out ↔ SettlesAtOnce out) ∧
    (extension? (goFile out).toList = some goExtension ↔ SettlesAtOnce out) ∧
    (¬ SettlesAtOnce out →
      (segments (goFile out).toList).getLast? = some ".go".toList ∧
      name? (goFile out).toList = some ".go".toList ∧
      extension? (goFile out).toList = none ∧
      goFile (goFile out) = goFile out ++ ".go") := by
  refine ⟨?_, goFile_eq_self_iff.trans extension?_goFile_iff, extension?_goFile_iff, ?_⟩
  · by_cases hext : extension? out.toList = some goExtension
    · exact .inl (goFile_of_extension hext)
    · exact .inr (goFile_of_no_extension hext)
  · intro hsettles
    have hagain := goFile_of_no_extension (mt extension?_goFile_iff.1 hsettles)
    obtain ⟨hext, hend⟩ := not_or.1 hsettles
    obtain ⟨front, parents, last, hout, hlast, hfront⟩ := exists_front out.toList
    obtain rfl : last = [] := by
      rw [last_eq_nil_iff hout hlast hfront]
      by_contra hsome
      exact hend (not_or.1 hsome)
    have hgo : (goFile out).toList = front ++ '.' :: goExtension := by
      rw [goFile_of_no_extension hext, toList_append_go hout, List.nil_append]
    have hsegments : segments (front ++ '.' :: goExtension) = parents ++ ['.' :: goExtension] :=
      hfront _ (by decide)
    have hdot : ".go".toList = '.' :: goExtension := rfl
    rw [hgo, hsegments, hdot]
    exact ⟨by simp, name?_dot_go hfront, extension?_dot_go hfront, hagain⟩

/-- A name with a dot in it takes the extension once.  A directory takes it twice. -/
theorem goFile_settles_iff_directory :
    (SettlesAtOnce "out/prog.v2" ∧
        goFile (goFile "out/prog.v2") = goFile "out/prog.v2" ∧
        extension? (goFile "out/prog.v2").toList = some goExtension) ∧
      ¬ SettlesAtOnce "out/" ∧ name? (goFile "out/").toList = some ".go".toList ∧
        goFile (goFile "out/") = goFile "out/" ++ ".go" := by
  have hname : SettlesAtOnce "out/prog.v2" := .inr (by decide)
  have hdirectory : ¬ SettlesAtOnce "out/" := by
    rintro (hext | ⟨-, hslash⟩)
    · exact absurd hext (by decide)
    · exact hslash rfl
  obtain ⟨-, hsettled, hext, -⟩ := goFile_settles_iff "out/prog.v2"
  obtain ⟨-, hgo, -, hagain⟩ := (goFile_settles_iff "out/").2.2.2 hdirectory
  exact ⟨⟨hname, hsettled.2 hname, hext.2 hname⟩, hdirectory, hgo, hagain⟩

end Brainfuck.Path
