import DeskCalculator.Command.Handling

/-!
# DeskCalculator.Command.Standard — the commands of the calculator
-/

namespace DeskCalculator

/-- The commands of the calculator, in the order of the help text. -/
def Command.standard : List Command :=
  [⟨"add", 2, .basic, "add <a> <b>", "Add two numbers", .binary .add⟩,
    ⟨"sub", 2, .basic, "sub <a> <b>", "Subtract two numbers", .binary .subtract⟩,
    ⟨"mul", 2, .basic, "mul <a> <b>", "Multiply two numbers", .binary .multiply⟩,
    ⟨"div", 2, .basic, "div <a> <b>", "Divide two numbers", .binary .divide⟩,
    ⟨"mod", 2, .basic, "mod <a> <b>", "Remainder of a division", .binary .modulus⟩,
    ⟨"pow", 2, .scientific, "pow <base> <exponent>", "Power", .binary .power⟩,
    ⟨"sqrt", 1, .scientific, "sqrt <number>", "Square root", .unary .squareRoot⟩,
    ⟨"cbrt", 1, .scientific, "cbrt <number>", "Cube root", .unary .cubeRoot⟩,
    ⟨"fact", 1, .scientific, "fact <n>", "Factorial", .unary .factorial⟩,
    ⟨"sin", 1, .scientific, "sin <angle>", "Sine", .unary .sine⟩,
    ⟨"cos", 1, .scientific, "cos <angle>", "Cosine", .unary .cosine⟩,
    ⟨"tan", 1, .scientific, "tan <angle>", "Tangent", .unary .tangent⟩,
    ⟨"asin", 1, .scientific, "asin <value>", "Inverse sine", .unary .arcsine⟩,
    ⟨"acos", 1, .scientific, "acos <value>", "Inverse cosine", .unary .arccosine⟩,
    ⟨"atan", 1, .scientific, "atan <value>", "Inverse tangent", .unary .arctangent⟩,
    ⟨"log", 1, .scientific, "log <number>", "Base-10 logarithm", .unary .commonLog⟩,
    ⟨"ln", 1, .scientific, "ln <number>", "Natural logarithm", .unary .naturalLog⟩,
    ⟨"logb", 2, .scientific, "logb <base> <number>", "Logarithm in any base", .binary .logarithm⟩,
    ⟨"ms", 1, .memory, "ms <value>", "Memory store", .memoryStore⟩,
    ⟨"mr", 0, .memory, "mr", "Memory recall", .fixed (.memory .retrieve)⟩,
    ⟨"mc", 0, .memory, "mc", "Memory clear", .fixed (.memory .clear)⟩,
    ⟨"m+", 1, .memory, "m+ <value>", "Memory add", .memoryAdd⟩,
    ⟨"m-", 1, .memory, "m- <value>", "Memory subtract", .memorySubtract⟩,
    ⟨"c+", 1, .chain, "c+ <value>", "Chain add", .chain .add⟩,
    ⟨"c-", 1, .chain, "c- <value>", "Chain subtract", .chain .subtract⟩,
    ⟨"c*", 1, .chain, "c* <value>", "Chain multiply", .chain .multiply⟩,
    ⟨"c/", 1, .chain, "c/ <value>", "Chain divide", .chain .divide⟩,
    ⟨"last", 0, .display, "last", "Show last result", .fixed .showLast⟩,
    ⟨"hist", 0, .display, "hist", "Show operation history", .fixed .showHistory⟩,
    ⟨"mhist", 0, .display, "mhist", "Show memory history", .fixed .showMemoryLog⟩,
    ⟨"settings", 0, .display, "settings", "Show settings", .fixed .showSettings⟩,
    ⟨"mode", 1, .settings, "mode <degrees|radians>", "Set angle mode", .setAngleUnit⟩,
    ⟨"prec", 1, .settings, "prec <0-15>", "Set precision", .setPrecision⟩,
    ⟨"pi", 0, .constants, "pi", "The constant pi", .fixed (.showConstant .pi)⟩,
    ⟨"e", 0, .constants, "e", "Euler's number", .fixed (.showConstant .euler)⟩,
    ⟨"clear", 0, .utility, "clear", "Clear history", .fixed .clearHistory⟩,
    ⟨"help", 0, .utility, "help", "Show available commands", .fixed .help⟩,
    ⟨"exit", 0, .utility, "exit", "Exit the calculator", .fixed .exit⟩]

/-- The commands of the calculator among commands of another kind. -/
def Command.standardAmong (α : Type) [Handling α] : List (Command α) :=
  standard.map (map Handling.ofAction)

/-- The catalogue of the commands of the calculator. -/
def Catalogue.standard (α : Type := Action) [Handling α] : Catalogue α :=
  .ofList (Command.standardAmong α)

end DeskCalculator
