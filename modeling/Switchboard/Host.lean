import Switchboard.Json.Readers

namespace Switchboard

-- What commands rely on and do not do themselves. `σ` is all that stands in the file system, `μ` a
-- query that is loaded and `π` one that is compiled. Failures come with the text that is shown for
-- them. An entry of a glob may fail on its own, and so may an output of a query. What makes a
-- directory or writes a file tells what it leaves behind, also if it fails.
structure Host (σ μ π : Type) where
  readers      : Json.Readers
  pointer?     : Json → String → Option Json
  load         : String → Except (List String) μ
  compile      : μ → Except (List (List (String × String))) π
  outputs      : π → Json → List (Except String Json)
  glob         : σ → String → Except String (List (Except String String))
  readText     : σ → String → Except String String
  createDirAll : σ → String → Except String Unit × σ
  write        : σ → String → String → Except String Unit × σ

end Switchboard
