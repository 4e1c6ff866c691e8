namespace ScmPlugins.Toml

inductive Origin where
  | headed
  | implied
  | dotted
  deriving DecidableEq, Repr

/-- What stands under a key. Of a number with a point or an exponent only whether it is finite is
kept, and of a date or time that it is one. -/
inductive Item where
  | text (s : String)
  | whole (n : Int)
  | real (finite : Bool)
  | moment
  | flag (b : Bool)
  | list (items : List Item)
  | inlined (entries : List (String × Item))
  | table (origin : Origin) (entries : List (String × Item))
  | tables (elements : List (List (String × Item)))

abbrev Table := List (String × Item)

namespace Table

def put (k : String) (v : Item) : Table → Table
  | [] => [(k, v)]
  | (l, w) :: t => if l = k then (l, v) :: t else (l, w) :: put k v t

/-- Changes the table at the end of a path. Tables that are missing on the way are made with the
given origin. A list of tables stands for its last element. A dotted key leads into no table that
has a header of its own, and no path leads through a value. -/
def within (made : Origin) (change : Origin → Table → Option Table) (here : Origin) :
    List String → Table → Option Table
  | [], t => change here t
  | k :: ks, t =>
    match t.lookup k with
    | none => (within made change made ks []).map fun u => t.put k (.table made u)
    | some (.table o u) =>
      if made = .dotted ∧ o = .headed then none
      else (within made change o ks u).map fun u => t.put k (.table o u)
    | some (.tables us) =>
      match us.getLast? with
      | none => none
      | some u =>
        (within made change .headed ks u).map fun u => t.put k (.tables (us.dropLast ++ [u]))
    | some _ => none

def add (k : String) (v : Item) (t : Table) : Option Table :=
  if (t.lookup k).isSome then none else some (t.put k v)

def assign (path : List String) (k : String) (v : Item) (t : Table) : Option Table :=
  within .dotted (fun o u => if path.isEmpty || o = .dotted then u.add k v else none)
    .headed path t

def openTable (path : List String) (k : String) (t : Table) : Option Table :=
  within .implied (fun _ u =>
    match u.lookup k with
    | none => some (u.put k (.table .headed []))
    | some (.table .implied v) => some (u.put k (.table .headed v))
    | some _ => none) .headed path t

def openElement (path : List String) (k : String) (t : Table) : Option Table :=
  within .implied (fun _ u =>
    match u.lookup k with
    | none => some (u.put k (.tables [[]]))
    | some (.tables vs) => some (u.put k (.tables (vs ++ [[]])))
    | some _ => none) .headed path t

def assignIn (header path : List String) (k : String) (v : Item) (t : Table) : Option Table :=
  within .implied (fun _ u => u.assign path k v) .headed header t

end Table

end ScmPlugins.Toml
