namespace Switchboard.Text

def isNameStart (c : Char) : Bool :=
  c.isAlpha || c = '_'

def isNamePart (c : Char) : Bool :=
  c.isAlphanum || c = '_'

mutual

def isName : List Char → Bool
  | [] => false
  | c :: cs => isNameStart c && isNameRest cs

def isNameRest : List Char → Bool
  | [] => true
  | ':' :: ':' :: cs => isName cs
  | c :: cs => isNamePart c && isNameRest cs

end

end Switchboard.Text
