import Mathlib.Data.List.Basic

/-! # Lines of a text

A text is cut at line boundaries, a carriage return and a line feed together
being one boundary, and each line is kept with or without its ending. Lines
without a boundary, each ended by a line feed, are read back as they were. -/

namespace Lines

variable {boundary : Char → Bool} {keepends : Bool} {line text : List Char}

def ending (keepends : Bool) (characters : List Char) : List Char :=
  if keepends then characters else []

/-- `str.splitlines(keepends)` for given boundaries; with both line breaks as
boundaries, the lines of a file opened with `newline=""`. -/
def splitlines (boundary : Char → Bool) (keepends : Bool) : List Char → List (List Char)
  | [] => []
  | '\r' :: '\n' :: text => ending keepends ['\r', '\n'] :: splitlines boundary keepends text
  | c :: text =>
    if boundary c then ending keepends [c] :: splitlines boundary keepends text
    else match splitlines boundary keepends text with
      | [] => [[c]]
      | line :: lines => (c :: line) :: lines

theorem splitlines_boundary {c : Char} (hc : boundary c = true) (hreturn : c ≠ '\r') :
    splitlines boundary keepends (c :: text) =
      ending keepends [c] :: splitlines boundary keepends text := by
  rw [splitlines, if_pos hc]
  intro rest hcr
  exact absurd hcr hreturn

theorem splitlines_cons {c : Char} (hc : boundary c = false) (hreturn : c ≠ '\r')
    {lines : List (List Char)} (h : splitlines boundary keepends text = line :: lines) :
    splitlines boundary keepends (c :: text) = (c :: line) :: lines := by
  rw [splitlines, if_neg (by simp [hc]), h]
  intro rest hcr
  exact absurd hcr hreturn

/-- A line without a boundary is the first one, and the lines after it follow. -/
theorem splitlines_line (hreturn : boundary '\r' = true) (hfeed : boundary '\n' = true)
    (hline : ∀ c ∈ line, boundary c = false) (text : List Char) :
    splitlines boundary keepends (line ++ '\n' :: text) =
      (line ++ ending keepends ['\n']) :: splitlines boundary keepends text := by
  induction line with
  | nil => exact splitlines_boundary hfeed (by decide)
  | cons c line ih =>
    have hc := hline c List.mem_cons_self
    have hrest := ih fun d hd => hline d (List.mem_cons_of_mem _ hd)
    have hne : c ≠ '\r' := by
      intro hcr
      rw [hcr, hreturn] at hc
      cases hc
    exact splitlines_cons hc hne hrest

/-- The text of the lines, each ended by a line feed. -/
def joined (lines : List (List Char)) : List Char := lines.flatMap fun line => line ++ ['\n']

/-- Lines written one after the other are read back. -/
theorem splitlines_joined (hreturn : boundary '\r' = true) (hfeed : boundary '\n' = true)
    {lines : List (List Char)} (hlines : ∀ line ∈ lines, ∀ c ∈ line, boundary c = false) :
    splitlines boundary keepends (joined lines) =
      lines.map fun line => line ++ ending keepends ['\n'] := by
  induction lines with
  | nil => rfl
  | cons line lines ih =>
    have hrest := ih fun l hl => hlines l (List.mem_cons_of_mem _ hl)
    show splitlines boundary keepends ((line ++ ['\n']) ++ joined lines) = _
    rw [List.append_assoc, List.singleton_append,
      splitlines_line hreturn hfeed (hlines line List.mem_cons_self), hrest]
    rfl

end Lines
