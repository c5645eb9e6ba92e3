/-! Cutting a text at the first occurrence of a character: the text before it
and the text after it, or nothing when the character does not occur. Later
occurrences stay in the second part. -/

namespace LayeredConfig

namespace Text

/-- The text before the first `sep` and the text after it. -/
def splitFirst? (s : String) (sep : Char) : Option (String × String) :=
  let cs := s.toList
  match cs.dropWhile (· != sep) with
  | _ :: after => some (String.ofList (cs.takeWhile (· != sep)), String.ofList after)
  | [] => none

theorem splitFirst?_append {a b : List Char} {sep : Char} (ha : sep ∉ a) :
    splitFirst? (String.ofList (a ++ sep :: b)) sep = some (String.ofList a, String.ofList b) := by
  have hsplit : (a ++ sep :: b).takeWhile (· != sep) = a ∧
      (a ++ sep :: b).dropWhile (· != sep) = sep :: b := by
    induction a with
    | nil => simp
    | cons c rest ih =>
      have hc : c ≠ sep := fun h => ha (h ▸ List.mem_cons_self)
      obtain ⟨ht, hd⟩ := ih fun h => ha (List.mem_cons_of_mem c h)
      simp [hc, ht, hd]
  simp [splitFirst?, hsplit.1, hsplit.2]

end Text

end LayeredConfig
