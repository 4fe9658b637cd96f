import Enablement.Text.AsciiCase

/-!
# Documents — colour modes

The colour mode of a document fixes how many bits a channel has. A mode has
two spellings: the name that expressions compare with (`Mode.name`), which
any case of letters matches, and a short tag for stored snapshots
(`Mode.tag`), which only itself matches.
-/

namespace Enablement

/-- The colour mode of a document. -/
inductive Mode
  | bitmap | grayScale | indexed | rgb | cmyk | hsl | hsb | multichannel | duotone | lab
  | gray16 | rgb48
deriving DecidableEq, Repr

namespace Mode

/-- All modes. -/
def all : List Mode :=
  [.bitmap, .grayScale, .indexed, .rgb, .cmyk, .hsl, .hsb, .multichannel, .duotone, .lab,
   .gray16, .rgb48]

/-- The short name of a mode in a stored snapshot. -/
def tag : Mode → String
  | .bitmap => "Bitmap"
  | .grayScale => "GrayScale"
  | .indexed => "Indexed"
  | .rgb => "RGB"
  | .cmyk => "CMYK"
  | .hsl => "HSL"
  | .hsb => "HSB"
  | .multichannel => "Multichannel"
  | .duotone => "Duotone"
  | .lab => "Lab"
  | .gray16 => "Gray16"
  | .rgb48 => "RGB48"

/-- The mode with a tag. -/
def ofTag? (s : String) : Option Mode := all.find? fun m => m.tag == s

/-- The name of a mode in an expression. -/
def name : Mode → String
  | .bitmap => "BitmapMode"
  | .grayScale => "GrayScaleMode"
  | .indexed => "IndexedMode"
  | .rgb => "RGBMode"
  | .cmyk => "CMYKMode"
  | .hsl => "HSLMode"
  | .hsb => "HSBMode"
  | .multichannel => "MultichannelMode"
  | .duotone => "DuotoneMode"
  | .lab => "LabMode"
  | .gray16 => "Gray16Mode"
  | .rgb48 => "RGB48Mode"

/-- The mode with a name, in whatever case it is written. -/
def ofName? (s : String) : Option Mode := all.find? fun m => Text.sameName m.name s

/-- The number of bits of a channel. -/
def depth : Mode → Int32
  | .bitmap => 1
  | .gray16 | .rgb48 => 16
  | _ => 8

/-- No mode is left out. -/
theorem mem_all (m : Mode) : m ∈ all := by cases m <;> decide

/-- A mode is found by its tag. -/
@[simp] theorem ofTag?_tag (m : Mode) : ofTag? m.tag = some m := by cases m <;> decide

/-- A name that is the tag of a mode is found. -/
theorem isSome_ofTag? {tag : String} (h : tag ∈ all.map Mode.tag) : (ofTag? tag).isSome = true := by
  obtain ⟨m, -, rfl⟩ := List.mem_map.1 h
  rw [ofTag?_tag]
  rfl

/-- The mode of a tag. -/
def ofTag (tag : { tag : String // tag ∈ all.map Mode.tag }) : Mode :=
  (ofTag? tag.1).get (isSome_ofTag? tag.2)

/-- The tag of a mode has this mode. -/
@[simp] theorem ofTag_tag (m : Mode) (h : m.tag ∈ all.map Mode.tag) : ofTag ⟨m.tag, h⟩ = m :=
  Option.get_of_eq_some _ (ofTag?_tag m)

/-- A mode is found by its name. -/
@[simp] theorem ofName?_name (m : Mode) : ofName? m.name = some m := by
  cases m <;> decide +kernel

end Mode
end Enablement
