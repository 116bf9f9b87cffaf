namespace ComputedFields.Text

/-- The pieces of a text between the separators. There is always one piece more than there are separators, so the
empty text is one empty piece. -/
def pieces (sep : Char) : List Char → List (List Char)
  | [] => [[]]
  | c :: rest =>
    if c = sep then [] :: pieces sep rest
    else
      match pieces sep rest with
      | [] => [[c]]
      | piece :: more => (c :: piece) :: more

def split (sep : Char) (s : String) : List String :=
  (pieces sep s.toList).map String.ofList

def join (sep : String) : List String → String
  | [] => ""
  | [s] => s
  | s :: rest => s ++ sep ++ join sep rest

end ComputedFields.Text
