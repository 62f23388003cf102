/-!
# The lines of a text

A line feed ends a line, so a text that is made of lines has one at its end, and what stands
after the last line feed is no line.  Lines that hold no line feed themselves are got back
from their text (`lines_ofLines`).
-/

namespace TreeCheck
namespace Text

def lines (s : String) : List String := (s.toList.splitOn '\n').dropLast.map String.ofList

def ofLines (ls : List String) : String := String.join (ls.map (· ++ "\n"))

/-- The text with a margin before every line. -/
def withMargin (margin s : String) : String := ofLines ((lines s).map (margin ++ ·))

theorem ofLines_cons (l : String) (ls : List String) :
    ofLines (l :: ls) = l ++ "\n" ++ ofLines ls := by
  rw [ofLines, List.map_cons, String.join_cons]
  rfl

theorem ofLines_singleton (l : String) : ofLines [l] = l ++ "\n" := by
  rw [ofLines_cons]
  exact String.append_empty

theorem ofLines_append (ls ks : List String) : ofLines (ls ++ ks) = ofLines ls ++ ofLines ks := by
  rw [ofLines, List.map_append, String.join_append]
  rfl

theorem splitOn_ofLines {ls : List String} (h : ∀ l ∈ ls, '\n' ∉ l.toList) :
    (ofLines ls).toList.splitOn '\n' = ls.map String.toList ++ [[]] := by
  induction ls with
  | nil => rfl
  | cons l ls ih =>
    have hl : '\n' ∉ l.toList := h l List.mem_cons_self
    have hls : ∀ l ∈ ls, '\n' ∉ l.toList := fun k hk => h k (List.mem_cons_of_mem l hk)
    have htext : (ofLines (l :: ls)).toList = l.toList ++ '\n' :: (ofLines ls).toList := by
      simp [ofLines_cons]
    rw [htext, List.splitOn_append_cons_self_of_not_mem hl, ih hls, List.map_cons,
      List.cons_append]

theorem lines_ofLines {ls : List String} (h : ∀ l ∈ ls, '\n' ∉ l.toList) :
    lines (ofLines ls) = ls := by
  rw [lines, splitOn_ofLines h, List.dropLast_concat, List.map_map]
  simp [Function.comp_def]

end Text
end TreeCheck
