/-
Enforcement on the text of a logs query (`api/logs/v1/labels_enforcer.go`).

The upstream parses the text that is printed for the changed query.  Where this text is parsed
as the changed query, each of its selectors implies the tenant matcher.  The text of a label
filter is printed without escapes, so that it can bring in a selector of its own.
-/

import McoaGateway.Logql.QueryText
import McoaGateway.Logs.LabelsEnforcer

namespace McoaGateway.Logs

open GoString

/-- The query `{a="b"}`. -/
def plainQuery : Logql.LogQueryExpr :=
  ⟨⟨[⟨.equal, ascii "a", ascii "b"⟩]⟩, []⟩

def plainValues : Values :=
  [(queryParam, plainQuery.string .asciiOnly fun _ => .zero)]

end McoaGateway.Logs
