import Enablement.Document.Snapshot
import Enablement.Declaration.Direct

/-!
# Documents — stored snapshots

A snapshot is stored as a record of eight fields (`Snapshot.declaration`). The
composite is stored as the snapshot has it; that a document with several layers is
not its own composite was settled when the snapshot was made. What a library does
with the record is a parameter.
-/

namespace Enablement
namespace Snapshot

/-- The fields of a stored snapshot. -/
inductive Field
  | width | height | mode | transparency | targetChannels | trueChannels | selection | composite
deriving DecidableEq, Repr

namespace Field

/-- All fields, in the order of their declaration. -/
def all : List Field :=
  [.width, .height, .mode, .transparency, .targetChannels, .trueChannels, .selection, .composite]

/-- The key of a field. -/
def key : Field → String
  | .width => "image_width"
  | .height => "image_height"
  | .mode => "image_mode"
  | .transparency => "has_transparency"
  | .targetChannels => "target_channel_count"
  | .trueChannels => "true_channel_count"
  | .selection => "has_selection"
  | .composite => "is_composite"

/-- The type of a field. A mode is stored by its tag. -/
def type : Field → FieldType
  | .width | .height | .targetChannels | .trueChannels => .integer
  | .mode => .choice (Mode.all.map Mode.tag)
  | .transparency | .selection | .composite => .boolean

end Field

/-- The declaration of a stored snapshot. -/
def declaration : Declaration where
  Field := Field
  decEq := inferInstance
  all := Field.all
  key := Field.key
  type := Field.type
  mem_all f := by cases f <;> decide
  nodup_key := by decide
  plain_key f := by cases f <;> decide
  plain_name f := by cases f <;> decide

/-- A snapshot as a record. -/
def record (v : Snapshot) : declaration.Record
  | .width => v.width
  | .height => v.height
  | .mode => ⟨v.mode.tag, List.mem_map_of_mem v.mode.mem_all⟩
  | .transparency => v.transparency
  | .targetChannels => v.targetChannels
  | .trueChannels => v.trueChannels
  | .selection => v.selection
  | .composite => v.composite

/-- The snapshot of a record. -/
def ofRecord (r : declaration.Record) : Snapshot where
  width := r .width
  height := r .height
  mode := Mode.ofTag (r .mode)
  transparency := r .transparency
  targetChannels := r .targetChannels
  trueChannels := r .trueChannels
  selection := r .selection
  composite := r .composite

/-- **The text that a library stores a snapshot as.** -/
def storeWith (L : Library) (v : Snapshot) : String := L.write declaration v.record

/-- **The snapshot that a library loads from a text**, if there is one. -/
def loadWith? (L : Library) (text : String) : Option Snapshot :=
  (L.read? declaration text).map ofRecord

/-- The stored form of a snapshot. -/
def store (v : Snapshot) : String := v.storeWith .direct

/-- The snapshot stored as a text. -/
def load? (text : String) : Option Snapshot := loadWith? .direct text

end Snapshot
end Enablement
