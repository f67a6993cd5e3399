import Mathlib.Data.List.Basic
import Brainfuck.Text.Lines

/-!
# Lines that are written one below the other

A text that is cut at its line feeds is cut at each of them alike, so lines that are each ended by
a line feed are found again.

* `Text.lineFeedPieces_append` — a line feed divides the pieces in front of it from those behind.
* `Text.lineFeedPieces_append_line` — what is added without a line feed is added to the last piece.
* `Text.lineFeedPieces_flatMap` — the pieces are the lines, and the empty line behind the last.
* `Text.newline_notMem_toDigits` — a number breaks no line.
-/

namespace Brainfuck.Text

variable {text line piece : List Char} {lines : List (List Char)} {c : Char}

theorem lineFeedPieces_cons_of_ne (hc : c ≠ '\n') {pieces : List (List Char)}
    (h : lineFeedPieces text = piece :: pieces) :
    lineFeedPieces (c :: text) = (c :: piece) :: pieces := by
  rw [lineFeedPieces, if_neg hc, h]

theorem lineFeedPieces_ne_nil (text : List Char) : lineFeedPieces text ≠ [] := by
  cases text with
  | nil => exact List.cons_ne_nil _ _
  | cons c text =>
      by_cases hc : c = '\n'
      · rw [lineFeedPieces, if_pos hc]
        exact List.cons_ne_nil _ _
      · rw [lineFeedPieces, if_neg hc]
        split <;> exact List.cons_ne_nil _ _

theorem exists_lineFeedPieces_eq (text : List Char) :
    ∃ piece pieces, lineFeedPieces text = piece :: pieces :=
  List.exists_cons_of_ne_nil (lineFeedPieces_ne_nil text)

theorem lineFeedPieces_line_append (hline : '\n' ∉ line) {pieces : List (List Char)}
    (h : lineFeedPieces text = piece :: pieces) :
    lineFeedPieces (line ++ text) = (line ++ piece) :: pieces := by
  induction line with
  | nil => exact h
  | cons c line ih =>
      rw [List.mem_cons, not_or] at hline
      exact lineFeedPieces_cons_of_ne (Ne.symm hline.1) (ih hline.2)

theorem lineFeedPieces_of_notMem (h : '\n' ∉ line) : lineFeedPieces line = [line] := by
  have hpieces : lineFeedPieces (line ++ []) = [line ++ []] := lineFeedPieces_line_append h rfl
  rwa [List.append_nil] at hpieces

/-- A line feed divides the pieces in front of it from those behind it. -/
theorem lineFeedPieces_append (text rest : List Char) :
    lineFeedPieces (text ++ '\n' :: rest) = lineFeedPieces text ++ lineFeedPieces rest := by
  induction text with
  | nil => simp [lineFeedPieces]
  | cons c text ih =>
      by_cases hc : c = '\n'
      · simp only [List.cons_append, lineFeedPieces, if_pos hc, ih]
      · obtain ⟨piece, pieces, htext⟩ := exists_lineFeedPieces_eq text
        rw [htext, List.cons_append] at ih
        rw [List.cons_append, lineFeedPieces_cons_of_ne hc ih, lineFeedPieces_cons_of_ne hc htext,
          List.cons_append]

/-- What is added without a line feed is added to the last piece. -/
theorem lineFeedPieces_append_line (text : List Char) :
    ∃ pieces last, lineFeedPieces text = pieces ++ [last] ∧
      ∀ line, '\n' ∉ line → lineFeedPieces (text ++ line) = pieces ++ [last ++ line] := by
  induction text with
  | nil => exact ⟨[], [], rfl, fun line hline => lineFeedPieces_of_notMem hline⟩
  | cons c text ih =>
      obtain ⟨pieces, last, htext, hline⟩ := ih
      by_cases hc : c = '\n'
      · refine ⟨[] :: pieces, last, ?_, fun line h => ?_⟩
        · rw [lineFeedPieces, if_pos hc, htext, List.cons_append]
        · rw [List.cons_append, lineFeedPieces, if_pos hc, hline line h, List.cons_append]
      · cases pieces with
        | nil =>
            refine ⟨[], c :: last, lineFeedPieces_cons_of_ne hc htext, fun line h => ?_⟩
            exact lineFeedPieces_cons_of_ne hc (hline line h)
        | cons piece pieces =>
            refine ⟨(c :: piece) :: pieces, last, lineFeedPieces_cons_of_ne hc htext,
              fun line h => ?_⟩
            exact lineFeedPieces_cons_of_ne hc (hline line h)

/-- A text of lines is cut into the pieces of its lines. -/
theorem lineFeedPieces_lines (lines : List (List Char)) :
    lineFeedPieces (lines.flatMap (· ++ ['\n'])) = lines.flatMap lineFeedPieces ++ [[]] := by
  induction lines with
  | nil => rfl
  | cons line lines ih =>
      rw [List.flatMap_cons, List.append_assoc, List.singleton_append, lineFeedPieces_append, ih,
        List.flatMap_cons, List.append_assoc]

theorem flatMap_lineFeedPieces (h : ∀ line ∈ lines, '\n' ∉ line) :
    lines.flatMap lineFeedPieces = lines := by
  induction lines with
  | nil => rfl
  | cons line lines ih =>
      obtain ⟨hline, hlines⟩ := List.forall_mem_cons.1 h
      rw [List.flatMap_cons, lineFeedPieces_of_notMem hline, ih hlines, List.singleton_append]

/-- A text of lines without line feeds is cut into these lines. -/
theorem lineFeedPieces_flatMap (h : ∀ line ∈ lines, '\n' ∉ line) :
    lineFeedPieces (lines.flatMap (· ++ ['\n'])) = lines ++ [[]] := by
  rw [lineFeedPieces_lines, flatMap_lineFeedPieces h]

/-- The first piece stands at the start of the text, and each piece somewhere in it. -/
theorem infix_of_mem_lineFeedPieces (text : List Char) :
    (∀ piece ∈ (lineFeedPieces text).head?, piece <+: text) ∧
      ∀ piece ∈ lineFeedPieces text, piece <:+: text := by
  induction text with
  | nil => simp [lineFeedPieces]
  | cons c text ih =>
      obtain ⟨first, pieces, htext⟩ := exists_lineFeedPieces_eq text
      simp only [htext, List.head?_cons, Option.mem_some_iff, forall_eq', List.forall_mem_cons]
        at ih
      obtain ⟨hfirst, -, hpieces⟩ := ih
      by_cases hc : c = '\n'
      · rw [lineFeedPieces, if_pos hc, htext]
        simp only [List.head?_cons, Option.mem_some_iff, forall_eq', List.forall_mem_cons]
        refine ⟨List.nil_prefix, List.nil_infix, ?_, fun piece h => ?_⟩
        · exact List.infix_cons hfirst.isInfix
        · exact List.infix_cons (hpieces piece h)
      · rw [lineFeedPieces_cons_of_ne hc htext]
        simp only [List.head?_cons, Option.mem_some_iff, forall_eq', List.forall_mem_cons]
        have hcons : c :: first <+: c :: text := List.cons_prefix_cons.2 ⟨rfl, hfirst⟩
        exact ⟨hcons, hcons.isInfix, fun piece h => List.infix_cons (hpieces piece h)⟩

/-- Each character is a line feed or stands in a piece. -/
theorem exists_mem_lineFeedPieces (h : c ∈ text) :
    c = '\n' ∨ ∃ piece ∈ lineFeedPieces text, c ∈ piece := by
  induction text with
  | nil => cases h
  | cons d text ih =>
      obtain ⟨first, pieces, htext⟩ := exists_lineFeedPieces_eq text
      by_cases hd : d = '\n'
      · rw [lineFeedPieces, if_pos hd]
        rcases List.mem_cons.1 h with rfl | h
        · exact .inl hd
        · exact (ih h).imp_right fun ⟨piece, hpiece, hc⟩ =>
            ⟨piece, List.mem_cons_of_mem _ hpiece, hc⟩
      · rw [lineFeedPieces_cons_of_ne hd htext]
        rw [htext] at ih
        rcases List.mem_cons.1 h with rfl | h
        · exact .inr ⟨_, List.mem_cons_self, List.mem_cons_self⟩
        · refine (ih h).imp_right fun ⟨piece, hpiece, hc⟩ => ?_
          rcases List.mem_cons.1 hpiece with rfl | hpiece
          · exact ⟨_, List.mem_cons_self, List.mem_cons_of_mem d hc⟩
          · exact ⟨piece, List.mem_cons_of_mem _ hpiece, hc⟩

theorem newline_notMem_toDigits (n : Nat) : '\n' ∉ Nat.toDigits 10 n := by
  intro h
  have hdigit := Nat.isDigit_of_mem_toDigits (by decide) (by decide) h
  cases hdigit

end Brainfuck.Text
