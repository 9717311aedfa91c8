import PathQuery.Error

/-!
# Configuration

How queries are executed. A recursion limit and a page size limit of zero are refused.
-/

set_option autoImplicit false

namespace PathQuery

structure Execution where
  /-- Whether selected members and items of lists are resolved together; results keep the order of
  the query. -/
  parallel : Bool := false
  /-- The greatest nesting of a compiled query. -/
  recursionLimit : Nat := 512
  /-- The greatest page size that a query may ask for. -/
  maxPageSize : Option Nat := none
deriving DecidableEq

structure Configuration where
  execution : Execution := {}
deriving DecidableEq

def Configuration.validate (configuration : Configuration) : Except ConfigurationFault Unit :=
  if configuration.execution.recursionLimit = 0 then
    .error ⟨"invalid execution.recursion_limit", "must be at least 1"⟩
  else if configuration.execution.maxPageSize = some 0 then
    .error ⟨"invalid execution.max_page_size", "must be at least 1"⟩
  else .ok ()

end PathQuery
