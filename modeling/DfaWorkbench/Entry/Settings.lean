import DfaWorkbench.Entry.Basic
import DfaWorkbench.Settings

/-!
Settings as an object: every field may be left out, and its name has to be known.
-/

namespace DfaWorkbench

namespace Spellings

def ofJson : Json → Spellings
  | .str s => run s
  | .arr xs => each (xs.map Name.of)
  | v => other v

def toJson : Spellings → Json
  | each words => .arr (words.map Name.value)
  | run text => .str text
  | other v => v

end Spellings

namespace Settings

def assign (s : Settings) (name : String) (v : Json) : Except EntryError Settings :=
  match name with
  | "arrow_tokens" => .ok { s with arrows := .ofJson v }
  | "alternation" => .ok { s with alternation := .ofSetting v }
  | "epsilon_markers" => .ok { s with emptyMarkers := .ofJson v }
  | "display_epsilon" => .ok { s with shownEmpty := .ofSetting v }
  | "display_arrow" => .ok { s with shownArrow := .ofSetting v }
  | "sink_state_id" => .ok { s with sinkId := .ofSetting v }
  | "layout_origin" => .ok { s with origin := v }
  | "layout_spacing" => .ok { s with spacing := v }
  | _ => .error (.unknownField name)

def ofFields (fs : List (String × Json)) : Except EntryError Settings :=
  fs.foldlM (fun s f => s.assign f.1 f.2) {}

def toJson (s : Settings) : Json :=
  .obj [
    ("arrow_tokens", s.arrows.toJson),
    ("alternation", s.alternation.value),
    ("epsilon_markers", s.emptyMarkers.toJson),
    ("display_epsilon", s.shownEmpty.value),
    ("display_arrow", s.shownArrow.value),
    ("sink_state_id", s.sinkId.value),
    ("layout_origin", s.origin),
    ("layout_spacing", s.spacing)]

end Settings

end DfaWorkbench
