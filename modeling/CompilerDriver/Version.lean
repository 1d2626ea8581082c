/-!
# The version of the program
-/

namespace CompilerDriver

/-- The name under which the program is installed. -/
def programName : String := "solc-relay"

/-- The version of the program. -/
def programVersion : String := "0.3.1"

end CompilerDriver
