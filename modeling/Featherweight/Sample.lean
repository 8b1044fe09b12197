import Featherweight.Expr.Basic

/-! Sample programs. Each has a name and its text in the surface language, which reports show. -/
namespace Featherweight

structure Sample where
  name : String
  source : String
  program : Expr

namespace Sample

open Featherweight.Expr (int sequence)

/-- A variable is declared and read. -/
def declareProgram : Expr :=
  .seq (.declare "v" (int 3)) (.var "v")

/-- A quotient is printed; the remainder is the value. -/
def arithmeticProgram : Expr :=
  .seq (.print (.binary .divide (int 10) (int 3))) (.binary .mod (int 10) (int 3))

def divideByZeroProgram : Expr :=
  .binary .divide (int 10) (int 0)

def countCondition (bound : Int) : Expr :=
  .binary .lt (.var "i") (int bound)

def countBody : Expr :=
  .assign "i" (.binary .add (.var "i") (int 1))

/-- A variable counts from `start` until it reaches `bound`. -/
def countProgram (start bound : Int) : Expr :=
  sequence (.declare "i" (int start)) [.loop (countCondition bound) countBody, .var "i"]

/-- A closure sees later assignments to a variable around it. -/
def counterProgram : Expr :=
  sequence (.declare "count" (int 1))
    [.declare "peek" (.function [] (.var "count")),
    .print (.call (.var "peek") []),
    .assign "count" (int 2),
    .call (.var "peek") []]

/-- A closure keeps the argument of the call that made it. -/
def makeAdderProgram : Expr :=
  .seq
    (.declare "makeAdder"
      (.function ["x"] (.function ["y"] (.binary .add (.var "x") (.var "y")))))
    (.call (.call (.var "makeAdder") [int 40]) [int 2])

/-- The body of the recursive function of the factorial program. -/
def factorialBody : Expr :=
  .cond (.binary .le (.var "n") (int 1)) (int 1)
    (.binary .multiply (.var "n") (.call (.var "fact") [.binary .subtract (.var "n") (int 1)]))

/-- A function calls itself through the name it is bound to. -/
def factorialProgram (n : Int) : Expr :=
  .seq (.declare "fact" (.function ["n"] factorialBody)) (.call (.var "fact") [int n])

/-- All samples, in the order in which they are listed. -/
def all : List Sample :=
  [⟨"declare", "var v = 3; v;", declareProgram⟩,
    ⟨"arithmetic", "print(10 / 3); 10 % 3;", arithmeticProgram⟩,
    ⟨"divide_by_zero", "10 / 0;", divideByZeroProgram⟩,
    ⟨"while", "var i = 0; while (i < 3) \x7b i = i + 1; \x7d i;", countProgram 0 3⟩,
    ⟨"counter",
      "var count = 1; var peek = function() \x7b count; \x7d; print(peek()); " ++
        "count = 2; peek();",
      counterProgram⟩,
    ⟨"make_adder",
      "var makeAdder = function(x) \x7b function(y) \x7b x + y; \x7d; \x7d; makeAdder(40)(2);",
      makeAdderProgram⟩,
    ⟨"factorial",
      "var fact = function(n) \x7b if (n <= 1) \x7b 1; \x7d else " ++
        "\x7b n * fact(n - 1); \x7d \x7d; fact(5);",
      factorialProgram 5⟩]

/-- The sample with the given name. -/
def find? (name : String) : Option Sample :=
  all.find? fun s => s.name == name

theorem names_nodup : (all.map Sample.name).Nodup := by
  decide

end Sample

end Featherweight
