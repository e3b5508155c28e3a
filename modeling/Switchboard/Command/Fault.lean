import Switchboard.Json.Printer
import Switchboard.Pattern.Strict
import Switchboard.Query

namespace Switchboard.Command

inductive Fault
  | nothingToCheck
  | malformedPatterns (count total : Nat)
  | patternFileUnread (path cause : String)
  | patternFileInvalid (path cause : String)
  | patternMalformed (path : String) (fault : Malformed)
  | queryRefused (fault : Query.Fault)
  | globMalformed (cause : String)
  | globEntryUnread (cause : String)
  | globMatchedNothing (glob : String)
  | sourceUnread (path cause : String)
  | documentInvalid (path : String) (number : Nat) (cause : String)
  | queryFailed (path : String) (fault : Query.Fault)
  | documentNotPositional (document : Json)
  | outputUnplaced (cause : String)
  | outputUnwritten (path cause : String)

namespace Fault

def message : Fault → String
  | nothingToCheck => "nothing to check: pass patterns or --pattern-file"
  | malformedPatterns n total => s!"{n} of {total} patterns are malformed"
  | patternFileUnread p cause => s!"failed to read pattern file {p}: {cause}"
  | patternFileInvalid p cause => s!"invalid pattern file {p}: {cause}"
  | patternMalformed p f => s!"in {p}: {f.message}"
  | queryRefused f => f.message
  | globMalformed cause => cause
  | globEntryUnread cause => cause
  | globMatchedNothing g => s!"glob pattern matched no files: {g}"
  | sourceUnread p cause => s!"failed to read source file {p}: {cause}"
  | documentInvalid p n cause => s!"failed to parse JSON ({p}, document {n}): {cause}"
  | queryFailed p f => s!"failed to apply jq expression to {p}: {f.message}"
  | documentNotPositional x =>
    s!"--positional expects every document to be an array, got {x.compact}"
  | outputUnplaced cause => cause
  | outputUnwritten p cause => s!"failed to write {p}: {cause}"

end Fault

end Switchboard.Command
