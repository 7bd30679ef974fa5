import Reckon.Compiler.Program

namespace Reckon

/-!
# Compilers with a history

A compiler that was used before keeps a cursor, code, locals and a depth, and one that failed keeps
all that it had read.  None of it reaches the next program: every part of a compiler is set when a
program starts, and again when the compiler is handed back.
-/

namespace Compiler

/-- A program starts alike on every compiler. -/
theorem start_eq_start_new
    (compiler : Compiler)
    (source : List Char)
    (tokens : List Token) :
    compiler.start source tokens = new.start source tokens :=
  rfl

/-- A compiler that was handed back is a new one. -/
theorem handBack_eq_new
    (compiler : Compiler) :
    compiler.handBack = new :=
  rfl

/-- Compiling tokens answers alike on every compiler, and leaves it alike. -/
theorem compileTokens_eq_compileTokens_new
    (compiler : Compiler)
    (source : List Char)
    (tokens : List Token) :
    compiler.compileTokens source tokens = new.compileTokens source tokens := by
  rw [compileTokens, start_eq_start_new, ← compileTokens]

/-- What a host can do with a compiler. -/
inductive Operation where
  | compile (source : List Char)
  | compileTokens (source : List Char) (tokens : List Token)
  | beginScope
  | endScope
  | addLocal (name : Token)
  | markInitialized
  | handBack

namespace Operation

/-- The compiler after an operation, however the operation ended. -/
def apply : Operation → Compiler → Compiler
  | .compile source, compiler => (compiler.compile source).2
  | .compileTokens source tokens, compiler => (compiler.compileTokens source tokens).2
  | .beginScope, compiler => compiler.beginScope
  | .endScope, compiler => compiler.endScope.2
  | .addLocal name, compiler =>
      match compiler.addLocal name with
      | .done declared => declared
      | .failed _ | .aborted => compiler
  | .markInitialized, compiler => compiler.markInitialized
  | .handBack, compiler => compiler.handBack

end Operation

/-- The compiler after operations one after the other. -/
def after (compiler : Compiler) (history : List Operation) : Compiler :=
  history.foldl (fun compiler operation => operation.apply compiler) compiler

/--
Whatever was done with a compiler, it compiles a source to the function or the error that a new
compiler gives, and is left as the new one is.  A source that cannot be read as tokens leaves it as
it was, and handed back it is a new one.
-/
theorem compile_after_eq_compile_new
    (history : List Operation)
    (source : List Char) :
    let compiler := new.after history
    (compiler.compile source).1 = (new.compile source).1 ∧
      (compiler.compile source).2 =
        (match tokenize source with
        | .ok _ => (new.compile source).2
        | .error _ => compiler) ∧
      compiler.handBack = new := by
  intro compiler
  unfold compile
  cases tokenize source with
  | error error =>
      exact ⟨rfl, rfl, compiler.handBack_eq_new⟩
  | ok tokens =>
      have same := compiler.compileTokens_eq_compileTokens_new source tokens
      exact ⟨congrArg Prod.fst same, congrArg Prod.snd same, compiler.handBack_eq_new⟩

/-- A compiler that failed inside of a group keeps what it has read, and a block stays open. -/
example :
    let used := new.after [.beginScope, .compile "(1 2".toList, .beginScope]
    used.cursor.behind.length = 2 ∧ used.chunk?.isSome = true ∧ used.depth = 1 := by
  decide

end Compiler

end Reckon
