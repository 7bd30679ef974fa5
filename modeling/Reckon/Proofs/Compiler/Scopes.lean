import Reckon.Proofs.Compiler.Blocks
import Reckon.Proofs.Compiler.Steps

namespace Reckon

/-!
# Locals in blocks

The list of locals stands for a stack of blocks.  Its depths tell which names belong to which block:
they fall from the innermost block to the outermost, and no local is deeper than the current block.

`Compiler.Holds` says that a compiler holds certain blocks.  Entering a block, leaving it, and
declaring a name do to the list of locals what they do to the blocks, and a name is resolved as it
is there.
-/

namespace Compiler

/-- Declare a local and make it readable. -/
def declare (compiler : Compiler) (name : Token) : Step Compiler := do
  let added ← compiler.addLocal name
  .done added.markInitialized

/-- The compiler after an action, which does nothing if it fails. -/
def act (compiler : Compiler) : ScopeAction → Compiler
  | .enter => compiler.beginScope
  | .leave => compiler.endScope.2
  | .declare name =>
      match compiler.declare name with
      | .done declared => declared
      | .failed _ | .aborted => compiler

/-- The compiler after actions one after the other. -/
def perform (compiler : Compiler) (actions : List ScopeAction) : Compiler :=
  actions.foldl act compiler

/-- The list of locals is that of the blocks, whose names have texts and fit in the slots. -/
structure Holds (compiler : Compiler) (blocks : Blocks) : Prop where
  locals : compiler.locals = blocks.locals
  depth : compiler.depth = blocks.length
  named : ∀ name ∈ blocks.flatten, ∃ text, name.text? compiler.source = some text
  room : blocks.flatten.length ≤ Blocks.capacity

/-- Code can be appended: there is a chunk for it, and a token whose line it has. -/
structure CanEmit (compiler : Compiler) (latest : Token) (chunk : Chunk) : Prop where
  read : compiler.cursor.previous? = some latest
  current : compiler.chunk? = some chunk

section Search

variable
  {compiler : Compiler}
  {text : List Char}

/-- The names of the current block are compared one by one. -/
theorem declaredHere_block
    {block : List Token}
    (named : ∀ name ∈ block, ∃ text, name.text? compiler.source = some text)
    {rest : List Local}
    (more : rest ≠ []) :
    compiler.declaredHere text (block.map (Local.readable compiler.depth) ++ rest) =
      if Blocks.Declares compiler.source block text then
        .done true
      else
        compiler.declaredHere text rest := by
  induction block with
  | nil =>
      simp [Blocks.Declares]
  | cons newest older inductionHypothesis =>
      obtain ⟨found, foundShape⟩ := named newest List.mem_cons_self
      have onward :=
        inductionHypothesis fun name member => named name (List.mem_cons_of_mem _ member)
      obtain ⟨next, others, othersShape⟩ :=
        Local.exists_cons_append (older.map (Local.readable compiler.depth)) more
      rw [othersShape] at onward
      have inside : (Local.readable compiler.depth newest).isOutside compiler.depth = false := by
        simp [Local.isOutside, Local.readable]
      rw [List.map_cons, List.cons_append, othersShape, declaredHere, inside]
      simp only [lexeme, Local.readable, foundShape, Bool.false_eq_true, ↓reduceIte,
        Outcome.done_bind, onward, Blocks.declares_cons_iff, Option.some.injEq]
      by_cases same : found = text <;> simp [same]

/-- The names of the blocks around the current one are not looked at. -/
theorem declaredHere_outer
    {outer : Blocks}
    (deeper : outer.length < compiler.depth) :
    compiler.declaredHere text outer.locals = .done false := by
  induction outer with
  | nil =>
      rfl
  | cons block outer inductionHypothesis =>
      rw [List.length_cons] at deeper
      cases block with
      | nil =>
          exact inductionHypothesis (by omega)
      | cons newest older =>
          obtain ⟨next, others, othersShape⟩ :=
            Local.exists_cons_append
              (older.map (Local.readable (outer.length + 1)))
              (Blocks.locals_ne_nil outer)
          have outside :
              (Local.readable (outer.length + 1) newest).isOutside compiler.depth = true := by
            simp only [Local.isOutside, Local.readable, Local.pending]
            grind
          rw [Blocks.locals, List.map_cons, List.cons_append, othersShape, declaredHere, outside]
          rfl

/-- The names of a block are compared one by one, and the first that fits gives the slot. -/
theorem resolveIn_block
    {block : List Token}
    (named : ∀ name ∈ block, ∃ text, name.text? compiler.source = some text)
    {depth : Int}
    (initialized : depth ≠ Local.pending)
    {rest : List Local}
    (more : rest ≠ [])
    (name : Token) :
    compiler.resolveIn name text (block.map (Local.readable depth) ++ rest) =
      match Blocks.place? compiler.source text block with
      | some place => .done (some (rest.length - 1 + place))
      | none => compiler.resolveIn name text rest := by
  induction block with
  | nil =>
      rfl
  | cons newest older inductionHypothesis =>
      obtain ⟨found, foundShape⟩ := named newest List.mem_cons_self
      have onward :=
        inductionHypothesis fun name member => named name (List.mem_cons_of_mem _ member)
      obtain ⟨next, others, othersShape⟩ :=
        Local.exists_cons_append (older.map (Local.readable depth)) more
      have counted : others.length + 1 = rest.length - 1 + (older.length + 1) := by
        have lengths := congrArg List.length othersShape
        have pos := List.length_pos_iff.mpr more
        simp only [List.length_append, List.length_map, List.length_cons] at lengths
        omega
      rw [othersShape] at onward
      rw [List.map_cons, List.cons_append, othersShape, resolveIn, Blocks.place?]
      simp only [lexeme, Local.readable, foundShape, Outcome.done_bind, initialized, ↓reduceIte,
        onward, Option.some.injEq, counted]
      by_cases same : found = text <;> simp [same]

/-- A name is looked for in the innermost block first. -/
theorem resolveIn_locals
    {blocks : Blocks}
    (named : ∀ name ∈ blocks.flatten, ∃ text, name.text? compiler.source = some text)
    (name : Token) :
    compiler.resolveIn name text blocks.locals =
      .done (blocks.slot? compiler.source text) := by
  induction blocks with
  | nil =>
      rfl
  | cons block outer inductionHypothesis =>
      rw [List.flatten_cons] at named
      have onward :=
        inductionHypothesis fun name member => named name (List.mem_append_right _ member)
      have initialized : ((outer.length : Int) + 1) ≠ Local.pending := by
        simp only [Local.pending]
        omega
      rw [Blocks.locals,
        resolveIn_block (fun name member => named name (List.mem_append_left _ member)) initialized
          (Blocks.locals_ne_nil outer),
        Blocks.length_locals, Blocks.slot?, onward]
      cases Blocks.place? compiler.source text block <;> rfl

end Search

section Drop

variable
  {compiler : Compiler}
  {latest : Token}
  {chunk : Chunk}

/-- The compiler with so many pops behind its code, on the line of the token read last. -/
def withPops (compiler : Compiler) (latest : Token) (chunk : Chunk) (count : Nat) : Compiler :=
  { compiler with
    chunk? := some (chunk.extend (List.replicate count (.plain .pop latest.line)) []) }

/-- A compiler that can emit can emit a pop. -/
theorem CanEmit.emit_pop
    (canEmit : compiler.CanEmit latest chunk) :
    compiler.emit .pop [] = .done (compiler.withPops latest chunk 1) := by
  simp only [emit, previous, canEmit.read, Outcome.done_bind, emitAt, canEmit.current,
    Chunk.write_make]
  rfl

/-- After any number of pops, a compiler can still emit. -/
theorem CanEmit.withPops
    (canEmit : compiler.CanEmit latest chunk)
    (count : Nat) :
    (compiler.withPops latest chunk count).CanEmit latest
      (chunk.extend (List.replicate count (.plain .pop latest.line)) []) :=
  ⟨canEmit.read, rfl⟩

theorem CanEmit.withPops_zero
    (canEmit : compiler.CanEmit latest chunk) :
    compiler.withPops latest chunk 0 = compiler := by
  have same : chunk.extend [] [] = chunk := by
    simp [Chunk.extend, Instruction.code, Instruction.lineTable]
  rw [Compiler.withPops, List.replicate_zero, same, ← canEmit.current]

/-- Pops after pops are as many together. -/
theorem withPops_withPops
    (first second : Nat) :
    (compiler.withPops latest chunk first).withPops latest
        (chunk.extend (List.replicate first (.plain .pop latest.line)) []) second =
      compiler.withPops latest chunk (first + second) := by
  simp [withPops, List.replicate_append_replicate]

/-- Names that are deeper than the current block are dropped with a pop each. -/
theorem dropLocals_block
    (canEmit : compiler.CanEmit latest chunk)
    {depth : Int}
    (deeper : compiler.depth < depth)
    (block : List Token)
    {rest : List Local}
    (more : rest ≠ []) :
    compiler.dropLocals (block.map (Local.readable depth) ++ rest) =
      (compiler.withPops latest chunk block.length).dropLocals rest := by
  induction block generalizing compiler chunk with
  | nil =>
      rw [List.length_nil, canEmit.withPops_zero]
      rfl
  | cons newest older inductionHypothesis =>
      obtain ⟨next, others, othersShape⟩ :=
        Local.exists_cons_append (older.map (Local.readable depth)) more
      have onward := inductionHypothesis (canEmit.withPops 1) deeper
      rw [othersShape, withPops_withPops, Nat.add_comm] at onward
      have dropped : compiler.depth < (Local.readable depth newest).depth := deeper
      rw [List.map_cons, List.cons_append, othersShape, dropLocals, if_pos dropped,
        canEmit.emit_pop]
      exact onward

/-- Names of the current block and of those around it stay. -/
theorem dropLocals_outer
    {outer : Blocks}
    (inside : outer.length ≤ compiler.depth) :
    compiler.dropLocals outer.locals = (true, { compiler with locals := outer.locals }) := by
  induction outer with
  | nil =>
      rfl
  | cons block outer inductionHypothesis =>
      rw [List.length_cons] at inside
      cases block with
      | nil =>
          exact inductionHypothesis (by omega)
      | cons newest older =>
          obtain ⟨next, others, othersShape⟩ :=
            Local.exists_cons_append
              (older.map (Local.readable (outer.length + 1)))
              (Blocks.locals_ne_nil outer)
          have shallow : ¬ compiler.depth < (Local.readable (outer.length + 1) newest).depth := by
            simp only [Local.readable]
            omega
          rw [Blocks.locals, List.map_cons, List.cons_append, othersShape, dropLocals,
            if_neg shallow]

end Drop

section Steps

variable
  {compiler : Compiler}
  {latest name : Token}
  {text : List Char}
  {chunk : Chunk}
  {blocks outer : Blocks}
  {block : List Token}

/-- Entering a scope adds an empty block. -/
theorem Holds.beginScope
    (holds : compiler.Holds blocks) :
    compiler.beginScope.Holds ([] :: blocks) where
  locals := holds.locals
  depth := by
    simp [Compiler.beginScope, holds.depth]
  named := holds.named
  room := holds.room

/-- Leaving a block drops its names, with a pop for each. -/
theorem Holds.endScope_eq
    (holds : compiler.Holds (block :: outer))
    (canEmit : compiler.CanEmit latest chunk) :
    compiler.endScope =
      (true,
        { compiler.withPops latest chunk block.length with
          locals := outer.locals
          depth := outer.length }) := by
  have depth : compiler.depth - 1 = outer.length := by
    rw [holds.depth, List.length_cons]
    omega
  have ready : { compiler with depth := compiler.depth - 1 }.CanEmit latest chunk :=
    ⟨canEmit.read, canEmit.current⟩
  calc
    compiler.endScope
      = { compiler with depth := compiler.depth - 1 }.dropLocals (Blocks.locals (block :: outer)) :=
        congrArg _ holds.locals
    _ = ({ compiler with depth := compiler.depth - 1 }.withPops latest chunk
          block.length).dropLocals outer.locals :=
        dropLocals_block ready (by simp only [depth]; omega) block (Blocks.locals_ne_nil outer)
    _ = _ := by
        rw [dropLocals_outer (by simp only [withPops, depth]; omega)]
        simp only [withPops, depth]

/-- A failure at a token with a text is reported. -/
theorem failAt_of_text?
    {α : Type}
    (spelled : name.text? compiler.source = some text)
    (problem : CompileProblem) :
    (compiler.failAt name problem : Step α) =
      .failed
        (.compile
          { line := name.line
            lexeme := if name.kind = .endOfInput then [] else text
            problem := problem }) := by
  unfold failAt lexeme
  split <;> simp [spelled, pure]

/-- Inside of a block, the newest local becomes readable there. -/
theorem markInitialized_eq
    (inside : compiler.depth ≠ 0)
    (more : compiler.locals ≠ [])
    (name : Token) :
    { compiler with locals := Local.declare name :: compiler.locals }.markInitialized =
      { compiler with locals := Local.readable compiler.depth name :: compiler.locals } := by
  obtain ⟨next, older, shape⟩ := List.exists_cons_of_ne_nil more
  simp only [markInitialized, inside, ↓reduceIte, shape, Local.declare, Local.readable]

/-- A name is declared unless there is no room for it or the current block has a name like it. -/
theorem Holds.declare_eq
    (holds : compiler.Holds (block :: outer))
    (spelled : name.text? compiler.source = some text) :
    compiler.declare name =
      if Blocks.capacity ≤ (block :: outer).flatten.length then
        compiler.failAt name .tooManyLocals
      else if Blocks.Declares compiler.source block text then
        compiler.failAt name .duplicateLocal
      else
        .done { compiler with locals := Blocks.locals ((name :: block) :: outer) } := by
  have depth : compiler.depth = outer.length + 1 :=
    holds.depth
  have full :
      maxLocals ≤ compiler.locals.length ↔
        Blocks.capacity ≤ (block :: outer).flatten.length := by
    rw [holds.locals, Blocks.length_locals, maxLocals, Blocks.capacity]
    omega
  have searched :
      compiler.declaredHere text compiler.locals =
        if Blocks.Declares compiler.source block text then .done true else .done false := by
    have named : ∀ name ∈ block, ∃ text, name.text? compiler.source = some text :=
      fun name member => holds.named name (List.mem_append_left _ member)
    rw [holds.locals, Blocks.locals, ← depth,
      declaredHere_block named (Blocks.locals_ne_nil outer), declaredHere_outer (by omega)]
  unfold declare addLocal
  simp only [full]
  split
  next =>
    simp only [failAt_of_text? spelled, Outcome.failed_bind]
  next =>
    simp only [lexeme, spelled, Outcome.done_bind, searched]
    split
    next =>
      simp only [Outcome.done_bind, ↓reduceIte, failAt_of_text? spelled, Outcome.failed_bind]
    next =>
      have more : compiler.locals ≠ [] := by
        rw [holds.locals]
        exact Blocks.locals_ne_nil _
      rw [Outcome.done_bind, if_neg Bool.false_ne_true, Outcome.done_bind,
        markInitialized_eq (by omega) more, holds.locals, depth]
      rfl

/-- A name that its blocks refuse is not declared. -/
theorem Holds.exists_failure
    (holds : compiler.Holds (block :: outer))
    (spelled : name.text? compiler.source = some text)
    (refused : Blocks.Refuses compiler.source block outer text) :
    ∃ error, compiler.declare name = .failed error := by
  rw [holds.declare_eq spelled, failAt_of_text? spelled, failAt_of_text? spelled]
  split
  next =>
    exact ⟨_, rfl⟩
  next free =>
    rw [if_pos (refused.resolve_left free)]
    exact ⟨_, rfl⟩

/-- A name that its blocks accept is the newest of the innermost block. -/
theorem Holds.declare_of_accepted
    (holds : compiler.Holds (block :: outer))
    (spelled : name.text? compiler.source = some text)
    (accepted : ¬ Blocks.Refuses compiler.source block outer text) :
    compiler.declare name =
      .done { compiler with locals := Blocks.locals ((name :: block) :: outer) } := by
  obtain ⟨free, undeclared⟩ := not_or.mp accepted
  rw [holds.declare_eq spelled, if_neg free, if_neg undeclared]

/-- A name is resolved to the slot that the blocks give it. -/
theorem Holds.resolveLocal_eq
    (holds : compiler.Holds blocks)
    (spelled : name.text? compiler.source = some text) :
    compiler.resolveLocal name = .done (blocks.slot? compiler.source text) := by
  rw [resolveLocal, lexeme, spelled]
  exact (congrArg _ holds.locals).trans (resolveIn_locals holds.named name)

/-- A name without a text is not declared. -/
theorem declare_ne_done
    (unspelled : name.text? compiler.source = none)
    (declared : Compiler) :
    compiler.declare name ≠ .done declared := by
  unfold declare addLocal failAt lexeme
  simp only [unspelled]
  split
  · split <;> nofun
  · nofun

/-- Declaring a name does to the locals what it does to the blocks, also if it fails. -/
theorem Holds.act_declare
    (holds : compiler.Holds (block :: outer))
    (name : Token) :
    compiler.act (.declare name) =
      { compiler with
        locals := (Blocks.declare compiler.source name (block :: outer)).locals } := by
  have unchanged : { compiler with locals := Blocks.locals (block :: outer) } = compiler := by
    rw [← holds.locals]
  cases spelled : name.text? compiler.source with
  | none =>
      simp only [act, Blocks.declare, spelled, unchanged]
      split
      next declared made =>
        exact (declare_ne_done spelled declared made).elim
      next =>
        rfl
      next =>
        rfl
  | some text =>
      by_cases refused : Blocks.Refuses compiler.source block outer text
      · obtain ⟨error, failed⟩ := holds.exists_failure spelled refused
        simp only [act, failed, Blocks.declare, spelled, refused, ↓reduceIte, unchanged]
      · simp only [act, holds.declare_of_accepted spelled refused, Blocks.declare, spelled, refused,
          ↓reduceIte]

/-- After a declaration, the compiler holds the blocks with the name, or as they were. -/
theorem Holds.declare
    (holds : compiler.Holds (block :: outer))
    (name : Token) :
    { compiler with locals := (Blocks.declare compiler.source name (block :: outer)).locals }.Holds
      (Blocks.declare compiler.source name (block :: outer)) := by
  have unchanged :
      { compiler with locals := Blocks.locals (block :: outer) }.Holds (block :: outer) :=
    ⟨rfl, holds.depth, holds.named, holds.room⟩
  rw [Blocks.declare]
  split
  next =>
    exact unchanged
  next text spelled =>
    split
    next =>
      exact unchanged
    next accepted =>
      have room := (not_or.mp accepted).1
      refine ⟨rfl, holds.depth, ?_, ?_⟩
      · intro other member
        rcases List.mem_cons.mp member with rfl | earlier
        · exact ⟨text, spelled⟩
        · exact holds.named other earlier
      · rw [List.flatten_cons, List.cons_append, List.length_cons, ← List.flatten_cons]
        omega

end Steps

/-! ### Runs -/

variable
  {compiler : Compiler}
  {latest : Token}
  {chunk : Chunk}

/-- An action does to the compiler what it does to the blocks. -/
theorem Holds.act
    {blocks : Blocks}
    (holds : compiler.Holds blocks)
    (canEmit : compiler.CanEmit latest chunk)
    {action : ScopeAction}
    (allowed : action = .enter ∨ blocks ≠ []) :
    (compiler.act action).Holds (action.onBlocks compiler.source blocks) ∧
      (compiler.act action).source = compiler.source ∧
        ∃ chunk, (compiler.act action).CanEmit latest chunk := by
  cases action with
  | enter =>
      exact ⟨holds.beginScope, rfl, chunk, canEmit.read, canEmit.current⟩
  | leave =>
      cases blocks with
      | nil =>
          simp at allowed
      | cons block outer =>
          rw [Compiler.act, holds.endScope_eq canEmit]
          refine ⟨⟨rfl, rfl, fun name member => ?_, ?_⟩, rfl, _, canEmit.read, rfl⟩
          · exact holds.named name (List.mem_append_right _ member)
          · have room := holds.room
            rw [List.flatten_cons, List.length_append] at room
            exact Nat.le_trans (Nat.le_add_left _ _) room
  | declare name =>
      cases blocks with
      | nil =>
          simp at allowed
      | cons block outer =>
          rw [holds.act_declare]
          exact ⟨holds.declare name, rfl, chunk, canEmit.read, canEmit.current⟩

/-- An allowed run does to the compiler what it does to the blocks. -/
theorem Holds.perform
    {blocks : Blocks}
    (holds : compiler.Holds blocks)
    (canEmit : compiler.CanEmit latest chunk)
    {actions : List ScopeAction}
    {opened : Nat}
    (allowed : ScopeAction.opened? blocks.length actions = some opened) :
    (compiler.perform actions).Holds (ScopeAction.perform compiler.source blocks actions) ∧
      (compiler.perform actions).source = compiler.source ∧
        ∃ chunk, (compiler.perform actions).CanEmit latest chunk := by
  induction actions generalizing compiler chunk blocks with
  | nil =>
      exact ⟨holds, rfl, chunk, canEmit⟩
  | cons action actions inductionHypothesis =>
      obtain ⟨first, onward⟩ := ScopeAction.opened?_cons compiler.source allowed
      obtain ⟨holdsNext, source, _, canEmitNext⟩ := holds.act canEmit first
      have rest := inductionHypothesis holdsNext canEmitNext onward
      rw [source] at rest
      exact rest

/-- A compiler without locals holds no blocks. -/
theorem holds_resetLocals
    (compiler : Compiler) :
    compiler.resetLocals.Holds [] where
  locals := rfl
  depth := rfl
  named := by simp
  room := Nat.zero_le _

/-- A run that leaves every block that it enters gives back the locals and the depth. -/
theorem Holds.perform_balanced
    {blocks : Blocks}
    (holds : compiler.Holds blocks)
    (canEmit : compiler.CanEmit latest chunk)
    {actions : List ScopeAction}
    (balanced : ScopeAction.opened? 0 actions = some 0) :
    (compiler.perform actions).Holds blocks := by
  have allowed := ScopeAction.opened?_add balanced blocks.length
  rw [Nat.zero_add] at allowed
  obtain ⟨left, shape, none⟩ :=
    @ScopeAction.exists_perform_append compiler.source [] actions 0 balanced blocks
  rw [List.length_eq_zero_iff.mp none] at shape
  have held := (holds.perform canEmit allowed).1
  rwa [← List.nil_append blocks, shape] at held

/-- The compiler has the locals of the blocks, and answers and acts as they do. -/
structure Implements
    (compiler : Compiler)
    (latest : Token)
    (blocks : Blocks) :
    Prop where
  locals : compiler.locals = blocks.locals
  depth : compiler.depth = blocks.length
  refuses :
    ∀ block outer name text,
      blocks = block :: outer →
      name.text? compiler.source = some text →
      ((∃ error, compiler.declare name = .failed error) ↔
        Blocks.Refuses compiler.source block outer text)
  keeps :
    ∀ name error,
      compiler.declare name = .failed error →
      compiler.act (.declare name) = compiler
  declares :
    ∀ block outer name text,
      blocks = block :: outer →
      name.text? compiler.source = some text →
      ¬ Blocks.Refuses compiler.source block outer text →
      compiler.declare name =
        .done { compiler with locals := Blocks.locals ((name :: block) :: outer) }
  resolves :
    ∀ name text,
      name.text? compiler.source = some text →
      compiler.resolveLocal name = .done (blocks.slot? compiler.source text)
  resolvesNone :
    ∀ name text,
      name.text? compiler.source = some text →
      (compiler.resolveLocal name = .done none ↔
        ∀ block ∈ blocks, ¬ Blocks.Declares compiler.source block text)
  addressable :
    ∀ name slot,
      compiler.resolveLocal name = .done (some slot) →
      1 ≤ slot ∧ slot ≤ 255
  leaves :
    ∀ block outer,
      blocks = block :: outer →
      ∃ chunk,
        compiler.chunk? = some chunk ∧
          compiler.endScope =
            (true,
              { compiler.withPops latest chunk block.length with
                locals := Blocks.locals outer
                depth := outer.length })
  restores :
    ∀ actions,
      ScopeAction.opened? 0 actions = some 0 →
      (compiler.perform actions).locals = compiler.locals ∧
        (compiler.perform actions).depth = compiler.depth

/-- A compiler that holds blocks does with names what the blocks say. -/
theorem Holds.implements
    {blocks : Blocks}
    (holds : compiler.Holds blocks)
    (canEmit : compiler.CanEmit latest chunk) :
    compiler.Implements latest blocks where
  locals := holds.locals
  depth := holds.depth
  refuses := by
    rintro block outer name text rfl spelled
    constructor
    · rintro ⟨error, failed⟩
      refine Decidable.of_not_not fun accepted => ?_
      rw [holds.declare_of_accepted spelled accepted] at failed
      cases failed
    · exact holds.exists_failure spelled
  keeps := by
    intro name error failed
    rw [Compiler.act, failed]
  declares := by
    rintro block outer name text rfl spelled accepted
    exact holds.declare_of_accepted spelled accepted
  resolves name text spelled :=
    holds.resolveLocal_eq spelled
  resolvesNone := by
    intro name text spelled
    rw [holds.resolveLocal_eq spelled, ← Blocks.slot?_eq_none_iff, Outcome.done.injEq]
  addressable := by
    intro name slot resolved
    cases spelled : name.text? compiler.source with
    | none =>
        rw [resolveLocal, lexeme, spelled] at resolved
        cases resolved
    | some text =>
        rw [holds.resolveLocal_eq spelled, Outcome.done.injEq] at resolved
        have bounds := Blocks.slot?_bounds resolved
        exact ⟨bounds.1, Nat.le_trans bounds.2 holds.room⟩
  leaves := by
    rintro block outer rfl
    exact ⟨chunk, canEmit.current, holds.endScope_eq canEmit⟩
  restores := by
    intro actions balanced
    have held := holds.perform_balanced canEmit balanced
    exact ⟨held.locals.trans holds.locals.symm, held.depth.trans holds.depth.symm⟩

/--
The list of locals implements a stack of blocks.  After any run in which blocks are left and names
declared only where a block is open, a name is refused exactly if all slots are taken or the
innermost block has a name like it, and then nothing changes.  A name is resolved to the slot of its
declaration in the innermost block that has one.  Leaving a block drops its names, with a pop for
each, and a run that leaves every block that it enters gives back the locals and the depth.
-/
theorem locals_implement_blocks
    (canEmit : compiler.CanEmit latest chunk)
    {actions : List ScopeAction}
    {opened : Nat}
    (allowed : ScopeAction.opened? 0 actions = some opened) :
    let reached := compiler.resetLocals.perform actions
    let blocks := ScopeAction.perform compiler.source [] actions
    reached.source = compiler.source ∧
      blocks.length = opened ∧
        reached.Implements latest blocks := by
  have ready : compiler.resetLocals.CanEmit latest chunk :=
    ⟨canEmit.read, canEmit.current⟩
  obtain ⟨holds, source, _, canEmitNow⟩ := compiler.holds_resetLocals.perform ready allowed
  obtain ⟨left, shape, counted⟩ :=
    @ScopeAction.exists_perform_append compiler.source [] actions opened allowed []
  rw [List.append_nil, List.append_nil] at shape
  refine ⟨source, ?_, holds.implements canEmitNow⟩
  rw [shape, counted]

/-- A compiler with the names `a`, `b` and again `a` in its source. -/
def threeNames : Compiler :=
  { new with
    source := "a b a".toList
    cursor := .ofTokens [⟨.identifier, 0, 1, 7⟩]
    chunk? := some .empty }

/-- A name in an inner block hides the one like it in the block around. -/
theorem threeNames_implement_shadowing :
    let outerName : Token := ⟨.identifier, 0, 1, 1⟩
    let innerName : Token := ⟨.identifier, 4, 1, 2⟩
    let actions : List ScopeAction := [.enter, .declare outerName, .enter, .declare innerName]
    let reached := threeNames.resetLocals.perform actions
    ScopeAction.opened? 0 actions = some 2 ∧
      reached.Implements ⟨.identifier, 0, 1, 7⟩ [[innerName], [outerName]] ∧
        reached.resolveLocal outerName = .done (some 2) ∧
          ∃ chunk,
            reached.endScope.2.chunk? = some chunk ∧
              chunk.code = [⟨.opcode, 18⟩] ∧ chunk.lines = [7] := by
  intro outerName innerName actions reached
  have canEmit : threeNames.CanEmit ⟨.identifier, 0, 1, 7⟩ .empty :=
    ⟨rfl, rfl⟩
  have allowed : ScopeAction.opened? 0 actions = some 2 :=
    rfl
  obtain ⟨_, _, implemented⟩ := locals_implement_blocks canEmit allowed
  have blocks :
      ScopeAction.perform threeNames.source [] actions = [[innerName], [outerName]] := by
    decide
  have slot : Blocks.slot? reached.source ['a'] [[innerName], [outerName]] = some 2 := by
    decide
  rw [blocks] at implemented
  have resolved := implemented.resolves outerName ['a'] rfl
  rw [slot] at resolved
  obtain ⟨chunk, before, left⟩ := implemented.leaves [innerName] [[outerName]] rfl
  have fresh : reached.chunk? = some .empty :=
    rfl
  obtain rfl := Option.some.inj (before.symm.trans fresh)
  refine ⟨allowed, implemented, resolved, ?_⟩
  rw [left]
  exact ⟨_, rfl, rfl, rfl⟩

end Compiler

end Reckon
