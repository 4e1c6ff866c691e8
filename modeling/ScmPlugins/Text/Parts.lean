namespace ScmPlugins.Text

def parts (mark : Char) : List Char → List (List Char)
  | [] => [[]]
  | c :: s =>
    if c = mark then [] :: parts mark s
    else
      match parts mark s with
      | [] => [[c]]
      | p :: ps => (c :: p) :: ps

end ScmPlugins.Text
