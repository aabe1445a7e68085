import Toolsmith.Protocol.Resource
import Toolsmith.Protocol.Tool

/-! # Descriptors of a weather service -/

namespace Toolsmith
namespace Samples

/-- The tools of the service, by the names of their properties. -/
def weatherTools : List (String × Tool) :=
  [("temperature", ⟨"temperature", "Current temperature of a city", none⟩),
   ("forecast",
    ⟨"forecast_days", "Forecast for the coming days",
     some (.object [("required", .array [.string "city"]), ("type", .string "object")])⟩),
   ("type", ⟨"type", "raw identifier", some (.string "any")⟩)]

/-- The resources of the service, by the names of their properties. -/
def weatherResources : List (String × Resource) :=
  [("stations", { name := "stations", uri := "weather://stations" }),
   ("notes",
    ((({ name := "Station notes", uri := "weather://notes" } : Resource).describe
      "Notes about each station").typed "text/markdown").annotate
      [("owner", "ops"), ("area", "north"), ("owner", "dev")]),
   ("static", ({ name := "static", uri := "weather://2" } : Resource).annotate [])]

end Samples
end Toolsmith
