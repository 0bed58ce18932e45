/-!
# Numbers of tools and pockets

A program names a tool by its number (`T12`), the magazine its pockets by theirs. Both are 32-bit words,
and the two need not agree: bringing them together is what this library is for.
-/

namespace ToolChanger

/-- The number that programs and the tool library call a tool by. Zero is no tool. -/
abbrev ToolId := UInt32

/-- The number of a place in the magazine. The first is one. -/
abbrev Pocket := UInt32

def ToolId.word (tool : ToolId) : String := "T" ++ toString tool.toNat

end ToolChanger
