import VisualNovel.Json.Same
import VisualNovel.Schema.Assign
import VisualNovel.Traversal.Stored

/-!
# Editing traversals

A host may edit a traversal by hand and compare it with a copy taken before. Values that are
assigned are checked, but anything can be added to a list, so what is edited is a traversal only if
nothing else was added. Frames are numbered from the outermost; negative numbers count from the
innermost.
-/

namespace VisualNovel

/-- An element of a list in a traversal that is edited. -/
inductive Element where
  /-- A checked part of the traversal: a frame, a variable or a line. -/
  | part (data : Json)
  /-- Anything else. -/
  | plain (data : Json)
  deriving Inhabited

namespace Element

/-- What the element shows. -/
def data : Element → Json
  | part v | plain v => v

/-- Two elements are the same. A part is never the same as data that only looks like it. -/
def same : Element → Element → Bool
  | part v, part w | plain v, plain w => v.same w
  | _, _ => false

end Element

/-- The check of a list of parts. -/
def Schema.parts {α : Type} (check : Json → Checked α) (toJson : α → Json) (v : Json) :
    Checked (List Element) :=
  (list check v).map fun as => as.map fun a => .part (toJson a)

/-- The check of a list of integers or texts. -/
def Schema.plains {α : Type} (check : Json → Checked α) (toJson : α → Json) (v : Json) :
    Checked (List Element) :=
  (list check v).map fun as => as.map fun a => .plain (toJson a)

/-- A traversal that is edited. -/
structure TraversalDraft where
  /-- The line to look at next. -/
  line : Int
  /-- The lists by name, in stored order. -/
  lists : List (String × List Element)
  /-- What the host has put aside under names that are not part of a traversal. -/
  hidden : List (String × Json) := []
  deriving Inhabited

namespace TraversalDraft

/-- The lists that hold the open blocks, and where a frame keeps them. -/
def blockLists : List (String × String) :=
  [("active_decisions", "suspended_decisions"), ("made_choices", "suspended_choices"),
    ("active_conditionals", "suspended_conditionals"),
    ("resolved_branches", "suspended_branches")]

/-- The check of a list by its name. -/
def listCheck (name : String) : Json → Checked (List Element) :=
  if name = "node_stack" then Schema.parts Schema.frame Frame.toJson
  else if name = "variables" then Schema.parts Schema.variable_ Variables.entryToJson
  else if name = "transcript" then Schema.parts Schema.spoken Spoken.toJson
  else if name = "command_history" || name = "completed_nodes" then
    Schema.plains Schema.str Json.str
  else Schema.plains Schema.int Json.int

/-- The list of a name. -/
def list? (d : TraversalDraft) (name : String) : Option (List Element) := d.lists.lookup name

/-- The draft with another list under a name. -/
def setList (d : TraversalDraft) (name : String) (es : List Element) : TraversalDraft :=
  { d with lists := d.lists.map fun l => if l.1 = name then (name, es) else l }

/-- The draft of a traversal. -/
def ofTraversal (t : Traversal) : TraversalDraft :=
  { line := t.cursor.line
    lists := t.members.filterMap fun m =>
      match listCheck m.1 m.2 with
      | .valid es => some (m.1, es)
      | .invalid _ => none }

/-- What a draft shows of a list. -/
def listToJson (l : String × List Element) : String × Json := (l.1, .arr (l.2.map Element.data))

/-- What a draft shows. -/
def toJson (d : TraversalDraft) : Json :=
  .obj (("current_line", .int d.line) :: d.lists.map listToJson)

/-- Two lists of elements are the same. -/
def sameElements : List Element → List Element → Bool
  | [], [] => true
  | a :: as, b :: bs => a.same b && sameElements as bs
  | _, _ => false

/-- Two drafts are the same; what is hidden does not count. -/
def same (d e : TraversalDraft) : Bool :=
  d.line == e.line && d.lists.length == e.lists.length &&
    (d.lists.zip e.lists).all fun (l, m) => l.1 == m.1 && sameElements l.2 m.2

/-- The frames, outermost first. -/
def frames (d : TraversalDraft) : List Element := (d.list? "node_stack").getD []

/-- The draft with other frames. -/
def setFrames (d : TraversalDraft) (es : List Element) : TraversalDraft := d.setList "node_stack" es

/-- The innermost frame. -/
def top (d : TraversalDraft) : Option Element := d.frames.getLast?

/-- The number of a frame, where negative numbers count from the end. -/
def frameNumber? (d : TraversalDraft) (i : Int) : Option Nat :=
  let j := if i < 0 then i + d.frames.length else i
  if 0 ≤ j ∧ j < d.frames.length then some j.toNat else none

end TraversalDraft

/-- A traversal that is edited, with a copy. -/
structure TraversalEditor where
  /-- The traversal. -/
  draft : TraversalDraft
  /-- The copy that was taken last. -/
  copy : Option TraversalDraft := none
  deriving Inhabited

namespace TraversalEditor

/-- How to edit a traversal. -/
inductive Edit where
  | suspend (frame : Int)
  | resume (frame : Int)
  | clear
  | top
  /-- Adds a frame for a node, whose name is checked. -/
  | pushFrame (node : Json)
  | popFrame
  /-- Adds anything to a list. -/
  | append (field : String) (value : Json)
  /-- Assigns a member, which is checked. -/
  | assign (field : String) (value : Json)
  /-- Takes a copy and says whether it equals the traversal. -/
  | clone
  /-- Gives the copy and says whether it equals the traversal. -/
  | compare
  deriving Inhabited

/-- What an edit answers. -/
inductive Answer where
  | nothing
  | flag (b : Bool)
  | frame (f : Option Json)
  | comparison (copy : Option Json) (equal : Bool)
  deriving Inhabited

/-- Something done by an editor. What has been done before a failure stays. -/
abbrev Editing (α : Type) := EStateM Failure TraversalEditor α

/-- A value, or the failure to get it. -/
def ofExcept {α : Type} : Except Failure α → Editing α
  | .ok a => return a
  | .error f => throw f

/-- Changes the traversal. -/
def change (f : TraversalDraft → TraversalDraft) : Editing Unit :=
  modify fun e => { e with draft := f e.draft }

/-- The name of the kind of a frame. -/
def frameKind : String := "NodeFrame"

/-- The name of the kind of a traversal. -/
def traversalKind : String := "TraversalState"

/-- What a traversal derives from its members. -/
def derivedNames : List String := ["top"]

/-- The frame with a number, as long as it is one. -/
def frameAt (i : Nat) (asked : String) : Editing Json := do
  match (← get).draft.frames[i]? with
  | some (.part f) => return f
  | some (.plain v) => throw (.lacks v.typeLabel asked)
  | none => throw .noElement

/-- Assigns a list of a frame, which is checked. -/
def assignToFrame (i : Nat) (name : String) (v : Json) : Editing Unit := do
  let frame ← frameAt i name
  let es ← ofExcept (Files.ofChecked ((Schema.ints v).within name))
  let members := match frame with
    | .obj ms => ms
    | _ => []
  change fun d =>
    d.setFrames (d.frames.set i (.part (.obj (Json.setMember name (.ints es) members))))

/-- A list of a frame. -/
def listOfFrame (i : Nat) (name : String) : Editing Json := do
  match ← frameAt i name with
  | .obj ms => return (Json.member? name ms).getD (.arr [])
  | _ => return .arr []

/-- The items of a list of the traversal. -/
def listOf (name : String) : Editing Json := do
  return .arr ((((← get).draft.list? name).getD []).map Element.data)

/-- Assigns a list of the traversal, which is checked. -/
def assignList (name : String) (v : Json) : Editing Unit := do
  let es ← ofExcept (Files.ofChecked ((TraversalDraft.listCheck name v).within name))
  change fun d => d.setList name es

/-- Empties the lists of open blocks. -/
def clear : Editing Unit :=
  TraversalDraft.blockLists.forM fun (active, _) => change fun d => d.setList active []

/-- Moves the open blocks into a frame. -/
def suspend (i : Nat) : Editing Unit := do
  TraversalDraft.blockLists.forM fun (active, suspended) => do
    assignToFrame i suspended (← listOf active)
  clear

/-- Moves the blocks of a frame back. -/
def resume (i : Nat) : Editing Unit := do
  TraversalDraft.blockLists.forM fun (active, suspended) => do
    assignList active (← listOfFrame i suspended)
  TraversalDraft.blockLists.forM fun (_, suspended) => assignToFrame i suspended (.arr [])

/-- The number of a frame that has to exist. -/
def frameNumber (i : Int) : Editing Nat := do
  match (← get).draft.frameNumber? i with
  | some n => return n
  | none => throw (if Number.isWord i then .noElement else .wideIndex)

/-- Adds to a list that stands by itself. -/
def extend (v : Json) : Json → Except Failure Json
  | .arr vs => .ok (.arr (vs ++ [v]))
  | w => .error (.lacks w.typeLabel "append")

/-- Adds to the innermost frame, which is possible only if it is a list. -/
def appendToTop (v : Json) : Editing Unit := do
  match (← get).draft.top with
  | none => throw (.lacks Json.null.typeLabel "append")
  | some (.part _) => throw (.lacks frameKind "append")
  | some (.plain w) =>
    let w ← ofExcept (extend v w)
    change fun d => d.setFrames (d.frames.dropLast ++ [.plain w])

/-- Adds to a list that the host has put aside. -/
def appendToHidden (name : String) (v : Json) : Editing Unit := do
  match Json.member? name (← get).draft.hidden with
  | none => throw (.lacks traversalKind name)
  | some w =>
    let w ← ofExcept (extend v w)
    change fun d => { d with hidden := Json.setMember name w d.hidden }

/-- Adds to what has a name. -/
def append (name : String) (v : Json) : Editing Unit := do
  match (← get).draft.list? name with
  | some es => change fun d => d.setList name (es ++ [.plain v])
  | none =>
    if name = "current_line" then throw (.lacks (Json.int 0).typeLabel "append")
    else if name = "top" then appendToTop v
    else appendToHidden name v

/-- Assigns to a name. -/
def assign (name : String) (v : Json) : Editing Unit := do
  let d := (← get).draft
  if name.toList.head? = some '_' then
    change fun d => { d with hidden := Json.setMember name v d.hidden }
  else
    let checked := if name = "current_line" then
        (Schema.int v).map fun n => { d with line := n }
      else (TraversalDraft.listCheck name v).map fun es => d.setList name es
    let d ← ofExcept
      (Schema.assign traversalKind Schema.traversalNames derivedNames name d (checked.within name))
    change fun _ => d

/-- Edits the traversal. -/
def run : Edit → Editing Answer
  | .suspend i => do
    suspend (← frameNumber i)
    return .nothing
  | .resume i => do
    resume (← frameNumber i)
    return .nothing
  | .clear => do
    clear
    return .nothing
  | .top => return .frame ((← get).draft.top.map Element.data)
  | .pushFrame node => do
    let f ← ofExcept (Files.ofChecked (Schema.frame (.obj [("node_name", node)])))
    change fun d => d.setFrames (d.frames ++ [.part f.toJson])
    return .nothing
  | .popFrame => do
    match (← get).draft.top with
    | none => throw .nothingToRemove
    | some f =>
      change fun d => d.setFrames d.frames.dropLast
      return .frame (some f.data)
  | .append field v => do
    append field v
    return .nothing
  | .assign field v => do
    assign field v
    return .nothing
  | .clone => do
    modify fun e => { e with copy := some e.draft }
    return .flag true
  | .compare => do
    let e ← get
    return .comparison (e.copy.map TraversalDraft.toJson) (e.copy.any e.draft.same)

end TraversalEditor

end VisualNovel
