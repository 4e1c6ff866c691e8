namespace ScmPlugins.Text

def lower (s : String) : String := String.ofList (s.toList.map Char.toLower)

def isName (name s : String) : Bool := lower s == name

end ScmPlugins.Text
