/-!
# The program

What the program says of itself.
-/

namespace SharedState.Program

def name : String := "exposed-model"

def version : String := "0.1.0"

def purpose : String := "Shared, revision-tracked state store served to remote observers."

end SharedState.Program
