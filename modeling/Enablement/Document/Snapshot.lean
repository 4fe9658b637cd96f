import Enablement.Document.Mode
import Enablement.Value

/-!
# Documents — what an expression can see of them

A snapshot holds the facts about a document that a filter's expression may
ask for, and each of the ten variables is one of these facts. Variables are
found by name in whatever case it is written; a name that is none of the ten
gives the mark of a variable that is not bound.
-/

namespace Enablement

/-- The variables of a document. -/
inductive Variable
  | imageMode | imageDepth | hasLayerMask | hasSelectionMask | hasTransparencyMask
  | numTargetChannels | numTrueChannels | isTargetComposite | imageWidth | imageHeight
deriving DecidableEq, Repr

namespace Variable

/-- All variables. -/
def all : List Variable :=
  [.imageMode, .imageDepth, .hasLayerMask, .hasSelectionMask, .hasTransparencyMask,
   .numTargetChannels, .numTrueChannels, .isTargetComposite, .imageWidth, .imageHeight]

/-- The name of a variable in an expression. -/
def name : Variable → String
  | .imageMode => "PSHOP_ImageMode"
  | .imageDepth => "PSHOP_ImageDepth"
  | .hasLayerMask => "PSHOP_HasLayerMask"
  | .hasSelectionMask => "PSHOP_HasSelectionMask"
  | .hasTransparencyMask => "PSHOP_HasTransparencyMask"
  | .numTargetChannels => "PSHOP_NumTargetChannels"
  | .numTrueChannels => "PSHOP_NumTrueChannels"
  | .isTargetComposite => "PSHOP_IsTargetComposite"
  | .imageWidth => "PSHOP_ImageWidth"
  | .imageHeight => "PSHOP_ImageHeight"

/-- The variable with a name, in whatever case it is written. -/
def ofName? (s : String) : Option Variable := all.find? fun x => Text.sameName x.name s

/-- The kind of the values of a variable. -/
def kind : Variable → ValueKind
  | .imageMode => .string
  | .imageDepth | .numTargetChannels | .numTrueChannels | .imageWidth | .imageHeight => .integer
  | .hasLayerMask | .hasSelectionMask | .hasTransparencyMask | .isTargetComposite => .boolean

/-- No variable is left out. -/
theorem mem_all (x : Variable) : x ∈ all := by cases x <;> decide

end Variable

/-- What an expression can see of a document. -/
structure Snapshot where
  /-- The width of the image in pixels. -/
  width : Int32
  /-- The height of the image in pixels. -/
  height : Int32
  /-- The colour mode. -/
  mode : Mode
  /-- Whether the target layer has transparency. -/
  transparency : Bool
  /-- The number of channels that the filter is asked to process. -/
  targetChannels : Int32
  /-- The number of colour channels of the image. -/
  trueChannels : Int32
  /-- Whether there is a selection. -/
  selection : Bool
  /-- Whether the target is the composite of the whole document. -/
  composite : Bool
deriving DecidableEq, Repr

namespace Snapshot

/-- The snapshot of a document that has several layers or one. Only a
document with one layer is its own composite. -/
def ofDocument (width height : Int32) (mode : Mode) (transparency : Bool)
    (targetChannels trueChannels : Int32) (selection severalLayers : Bool) : Snapshot :=
  ⟨width, height, mode, transparency, targetChannels, trueChannels, selection, !severalLayers⟩

/-- The number of bits of a channel. -/
def depth (s : Snapshot) : Int32 := s.mode.depth

/-- Layer masks are never shown to a filter. -/
def layerMask (_ : Snapshot) : Bool := false

/-- The value of a variable. -/
def get (s : Snapshot) : Variable → Value
  | .imageMode => .string s.mode.name
  | .imageDepth => .integer s.depth
  | .hasLayerMask => .boolean s.layerMask
  | .hasSelectionMask => .boolean s.selection
  | .hasTransparencyMask => .boolean s.transparency
  | .numTargetChannels => .integer s.targetChannels
  | .numTrueChannels => .integer s.trueChannels
  | .isTargetComposite => .boolean s.composite
  | .imageWidth => .integer s.width
  | .imageHeight => .integer s.height

/-- The value that a name stands for. -/
def lookup (s : Snapshot) (name : String) : Value :=
  match Variable.ofName? name with
  | some x => s.get x
  | none => .undefined name

/-- The kind of a variable is that of its values, whatever the document. -/
@[simp] theorem kind_get (s : Snapshot) (x : Variable) : (s.get x).kind = x.kind := by
  cases x <;> rfl

end Snapshot
end Enablement
