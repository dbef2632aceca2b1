import Scaffold.Stencil.Filter
import Scaffold.Stencil.Machine
import Scaffold.Stencil.Tree.Names
import Scaffold.Stencil.Tree.Reader

/-!
# Running stencils

Expressions and pieces of stencils are run by recursion on the tree. Macros, blocks and
recursive loops lead out of the tree: `Invocation` says where to, and `invoke` goes there, at
most as deep as frames may be on top of each other. `Tree.render` runs a whole stencil and
`Expr.value` an expression.
-/

namespace Scaffold.Stencil

/-- What a run does besides going down the tree. -/
inductive Invocation where
  | expand (id : Nat) (args : Args)
  | block (name : String)
  | again (target : Target) (body : List Stmt) (source : Value)

/-- Goes where an invocation leads and gives what comes back. -/
abbrev Invoker := Invocation → Run Value

namespace Run

/-- Runs a step that cannot print. -/
def lift {α : Type} (r : Except Fault α) : Run α := fun m => r.map (·, m)

/-- A value as operators, filters and printing see it. -/
def view (v : Value) : Run Value := return (← get).view v

/-- What looking something up in a value gives when it is not there. -/
def missing (s : Setting) (owner : Value) : Run Value :=
  if owner.isUndefined && !s.lenient then throw .undefinedValue else return .undefined

/-- Adds to what was printed. -/
def write (text : String) : Run Unit := modify fun m => { m with output := m.output ++ text }

/-- Prints a value. -/
def print (v : Value) : Run Unit := do
  let v ← view v
  write (if (← get).escapes then v.displayEscaped else v.display)

/-- Puts a frame on top. -/
def push (f : Frame) : Run Unit := do
  if Machine.maxDepth < (← get).depth + 1 then throw .invalidOperation
  modify fun m => { m with frames := f :: m.frames }

/-- Takes the top frame away. -/
def pop : Run Unit := modify fun m => { m with frames := m.frames.drop 1 }

/-- Runs a step inside of a new frame. -/
def within {α : Type} (f : Frame) (step : Run α) : Run α := do
  push f
  let a ← step
  pop
  return a

/-- A text, safe if texts are escaped here. -/
def printed (s : String) : Run Value := return .str s (← get).escapes

/-- Runs a step and gives what it prints. -/
def capture (step : Run Unit) : Run Value := do
  let before := (← get).output
  modify fun m => { m with output := "" }
  step
  let inside := (← get).output
  modify fun m => { m with output := before }
  printed inside

/-- Stores a value under a name. -/
def store (name : String) (v : Value) : Run Unit := modify fun m => m.store name v

/-- A bound of a range. -/
def rangeBound (v : Value) : Except Fault Int := Args.asWhole (-sizeLimit) sizeLimit v

/-- The numbers from a first one, a step apart. -/
def rangeItems (first step : Int) (count : Nat) : List Value :=
  (List.range count).map fun (i : Nat) => .int (first + step * (i : Int))

/-- The numbers of a range; there are at most a hundred thousand. -/
def range (args : Args) : Except Fault Value := do
  let l ← args.atMost 3
  let low ← rangeBound (← Args.required l 0)
  let high? ← Args.option rangeBound (Args.optional l 1)
  let step := (← Args.option rangeBound (Args.optional l 2)).getD 1
  let (low, high) := match high? with
    | some high => (low, high)
    | none => (0, low)
  if step = 0 then throw .invalidOperation
  let count :=
    if 0 < step then ((high - low + step - 1) / step).toNat
    else ((low - high - step - 1) / (-step)).toNat
  if 100000 < count then throw .invalidOperation
  return .list (rangeItems low step count) true

/-- A map with named values added. -/
def dict (args : Args) : Except Fault Value := do
  if 1 < args.plain.length then throw .tooManyArguments
  let entries : List (Value × Value) ← match args.plain.head? with
    | none | some Value.undefined => pure []
    | some (Value.map e) => pure e
    | some _ => throw .invalidOperation
  return .map (args.named.foldl (fun e p => Value.insertKey (.text p.1) p.2 e) entries)

/-- A new namespace. -/
def makeNamespace (args : Args) : Run Value := do
  let l ← lift (args.atMost 1)
  let entries : Entries Value ← match l.head? with
    | none | some Value.undefined => pure []
    | some (Value.named e) => pure (Entries.ofPairs e)
    | some (Value.map e) => pure (Entries.ofPairs (e.map fun p => (p.1.display, p.2)))
    | some _ => throw .invalidOperation
  let id := (← get).namespaces.size
  modify fun m => { m with namespaces := m.namespaces.push entries }
  return .namespaceRef id

/-- Calls a function that is always there. -/
def callFunction (name : String) (args : Args) : Run Value := do
  match name with
  | "range" => lift (range args)
  | "dict" => lift (dict args)
  | "namespace" => makeNamespace args
  | "debug" =>
    match args.all with
    | [v] => return .text ((← view v).outline 0)
    | l => return .text ((← view (.items l)).outline 0)
  | _ => throw .invalidOperation

/-- Calls a value. -/
def callValue (call : Invoker) (callee : Value) (args : Args) : Run Value :=
  match callee with
  | .macroRef id => call (.expand id args)
  | .function name => callFunction name args
  | .loopRef _ => throw .unknownFunction
  | _ => throw .invalidOperation

/-- Calls a method of the loop that is under way. -/
def callLoop (id : Nat) (name : String) (args : Args) : Run Value := do
  match (← get).loops[id]?, name with
  | some l, "cycle" =>
    return (args.all[l.index % args.all.length]?).getD .undefined
  | some l, "changed" =>
    let isSame := match l.changed with
      | some before => (Value.items before).equal (.items args.all)
      | none => false
    if isSame then return .bool false
    modify fun m => { m with
      loops := m.loops.modify id fun l => { l with changed := some args.all } }
    return .bool true
  | _, _ => throw .unknownMethod

/-- Calls a method of a value. -/
def callMethod (call : Invoker) (owner : Value) (name : String) (args : Args) : Run Value := do
  match owner with
  | .loopRef id => callLoop id name args
  | owner =>
    match (← get).attr? name owner with
    | some callee => callValue call callee args
    | none => throw .unknownMethod

/-- Calls what a name stands for. -/
def callName (s : Setting) (call : Invoker) (name : String) (args : Args) : Run Value := do
  if name = "super" then throw .invalidOperation
  else if name = "loop" then
    match args.all with
    | [source] =>
      let m ← get
      match m.innerLoop? with
      | none => throw .unknownFunction
      | some id =>
        match m.loops[id]? with
        | some { again := some (target, body), .. } => call (.again target body source)
        | _ => throw .invalidOperation
    | _ => throw .invalidOperation
  else
    match (← get).lookup? s name with
    | some callee => callValue call callee args
    | none => throw .unknownFunction

/-- Whether a comparison holds. -/
def compare (op : Comparison) (a b : Value) : Except Fault Bool :=
  match op with
  | .eq => .ok (a.equal b)
  | .ne => .ok (!a.equal b)
  | .lt => .ok (a.order b == .lt)
  | .le => .ok (a.order b != .gt)
  | .gt => .ok (a.order b == .gt)
  | .ge => .ok (a.order b != .lt)
  | .isIn => b.contains a
  | .isNotIn => (!·) <$> b.contains a

/-- The result of a binary operator. -/
def operate : BinaryOp → Value → Value → Except Fault Value
  | .add => Value.add
  | .sub => Value.sub
  | .mul => Value.mul
  | .div => Value.div
  | .floorDiv => Value.floorDiv
  | .rem => Value.rem
  | .pow => Value.pow
  | .concat => fun a b => .ok (Value.concat a b)

/-- Applies a filter. -/
def applyFilter (name : String) (v : Value) (args : Args) : Run Value := do
  let v ← view v
  let plain ← args.plain.mapM view
  lift (Filter.apply (plain.length + 2) name v { args with plain })

/-- Applies a test. -/
def applyTest (name : String) (v : Value) (args : Args) : Run Value := do
  match Predicate.find? name with
  | some p =>
    let v ← view v
    let plain ← args.plain.mapM view
    return .bool (← lift (p v { args with plain }))
  | none => throw .unknownTest

mutual

/-- The value of an expression. -/
def eval (s : Setting) (call : Invoker) : Expr → Run Value
  | .const v => return v
  | .var name => return ((← get).lookup? s name).getD .undefined
  | .list items => return .items (← evalAll s call items)
  | .map entries => return Value.mapOf (← evalEntries s call entries)
  | .not e => return .bool (!(← view (← eval s call e)).isTrue)
  | .neg e => do lift (Value.neg (← eval s call e))
  | .binary op a b => do
    let x ← view (← eval s call a)
    let y ← view (← eval s call b)
    lift (operate op x y)
  | .and a b => do
    let x ← eval s call a
    if (← view x).isTrue then eval s call b else return x
  | .or a b => do
    let x ← eval s call a
    if (← view x).isTrue then return x else eval s call b
  | .compare first links => do
    let x ← view (← eval s call first)
    evalLinks s call x links
  | .choose test yes no => do
    if (← view (← eval s call test)).isTrue then eval s call yes else eval s call no
  | .attr owner name => do
    let v ← eval s call owner
    match (← get).attr? name v with
    | some w => return w
    | none => missing s v
  | .item owner key => do
    let v ← eval s call owner
    let k ← view (← eval s call key)
    match (← get).item? k v with
    | some w => return w
    | none => missing s v
  | .slice owner start stop step => do
    let v ← view (← eval s call owner)
    let a ← eval s call start
    let b ← eval s call stop
    let c ← eval s call step
    lift (v.slice a b c)
  | .filter name input args => do
    let v ← eval s call input
    applyFilter name v (← evalArgs s call args)
  | .test name input args => do
    let v ← eval s call input
    applyTest name v (← evalArgs s call args)
  | .callName name args => do callName s call name (← evalArgs s call args)
  | .callMethod owner name args => do
    let v ← eval s call owner
    callMethod call v name (← evalArgs s call args)
  | .callBlock name => call (.block name)
  | .callValue callee args => do
    let v ← eval s call callee
    callValue call v (← evalArgs s call args)

def evalAll (s : Setting) (call : Invoker) : List Expr → Run (List Value)
  | [] => return []
  | e :: rest => do
    let v ← eval s call e
    return v :: (← evalAll s call rest)

def evalEntries (s : Setting) (call : Invoker) : List Entry → Run (List (Value × Value))
  | [] => return []
  | .mk key value :: rest => do
    let k ← view (← eval s call key)
    let v ← eval s call value
    return (k, v) :: (← evalEntries s call rest)

/-- The rest of a comparison, given the value that is compared next. -/
def evalLinks (s : Setting) (call : Invoker) (x : Value) : List Link → Run Value
  | [] => return .bool true
  | .mk op operand :: rest => do
    let y ← view (← eval s call operand)
    if ← lift (compare op x y) then evalLinks s call y rest else return .bool false

def evalArgs (s : Setting) (call : Invoker) : List Arg → Run Args
  | [] => return {}
  | .plain e :: rest => do
    let v ← eval s call e
    let args ← evalArgs s call rest
    return { args with plain := v :: args.plain }
  | .spread e :: rest => do
    let v ← view (← eval s call e)
    let l ← lift (Args.asItems v)
    let args ← evalArgs s call rest
    return { args with plain := l ++ args.plain }
  | .named name e :: rest => do
    let v ← eval s call e
    let args ← evalArgs s call rest
    return { args with named := (name, v) :: args.named }
  | .spreadNamed e :: rest => do
    let v ← view (← eval s call e)
    let entries ← match v with
      | .map e => pure e
      | _ => throw .invalidOperation
    let args ← evalArgs s call rest
    return { args with named := entries.map (fun p => (p.1.display, p.2)) ++ args.named }

end

/-- The parts of a value that is stored under several names. -/
def parts (count : Nat) (v : Value) : Except Fault (List Value) :=
  match v with
  | .list l _ => check l
  | .group k l => check [k, .list l true]
  | .map e => check (e.map (·.1))
  | _ => .error .cannotUnpack
where
  check (l : List Value) : Except Fault (List Value) :=
    if l.length = count then .ok l else .error .cannotUnpack

mutual

/-- Stores a value under a target. -/
def assign (s : Setting) (call : Invoker) : Target → Value → Run Unit
  | .name name, v => store name v
  | .attr owner name, v => do
    match ← eval s call owner with
    | .namespaceRef id =>
      modify fun m => { m with
        namespaces := m.namespaces.modify id (Entries.insert name v) }
    | _ => throw .invalidOperation
  | .tuple ts, v => do
    let l ← lift (parts ts.length (← view v))
    assignAll s call ts l

def assignAll (s : Setting) (call : Invoker) : List Target → List Value → Run Unit
  | t :: ts, v :: vs => do
    assign s call t v
    assignAll s call ts vs
  | _, _ => return ()

end

/-- Applies filters one after the other. -/
def applyFilters (s : Setting) (call : Invoker) : List FilterCall → Value → Run Value
  | [], v => return v
  | f :: rest, v => do
    let args ← evalArgs s call f.args
    applyFilters s call rest (← applyFilter f.name v args)

/-- Whether texts are escaped in a mode. -/
def escapingMode (v : Value) : Except Fault Bool :=
  match v with
  | .str "html" _ => .ok true
  | .str "none" _ => .ok false
  | .str _ _ => .error .invalidOperation
  | v => .ok (v.equal (.bool true))

/-- Looks for the first stencil that one of the names stands for. There are no others to be
found; that is no fault where no name is given or the stencil may be missing. -/
def findStencil (mayBeMissing : Bool) (name : Value) : Except Fault Unit :=
  let names := match name with
    | .list .. | .map _ | .group .. => name.iterate?.getD []
    | name => [name]
  if !names.all (·.asText?.isSome) then .error .invalidOperation
  else if names.isEmpty || mayBeMissing then .ok ()
  else .error .stencilNotFound

/-- Runs a step for every item of a loop. -/
def forItems (id : Nat) (step : Value → Run Unit) (index : Nat) (previous : Value) :
    List Value → Run Unit
  | [] => return ()
  | v :: rest => do
    modify fun m => { m with
      loops := m.loops.modify id fun l =>
        { l with index, previous, upcoming := rest.head?.getD .undefined } }
    step v
    forItems id step (index + 1) v rest

/-- Runs a loop in a frame of its own, one deeper than a recursive loop that it is in. -/
def runLoop (again : Option (Target × List Stmt)) (step : Value → Run Unit) (l : List Value) :
    Run Unit := do
  let m ← get
  let depth := match m.innerLoop?.bind (m.loops[·]?) with
    | some { again := some _, depth, .. } => depth + 1
    | _ => 0
  let id := m.loops.size
  set { m with loops := m.loops.push { length := l.length, depth, again } }
  within { loop := some id } (forItems id step 0 .undefined l)

/-- The items that a filter of a loop lets through. -/
def keepItems (test : Value → Run Bool) : List Value → Run (List Value)
  | [] => return []
  | v :: rest => do
    if ← test v then return v :: (← keepItems test rest) else keepItems test rest

/-- A new macro, which sees the names of the frame it is declared in. -/
def makeMacro (s : Setting) (name : String) (signature : Signature) (body : List Stmt) :
    Run Value := do
  let m ← get
  let names := signature.names ++ namesOfStmts body
  let (shared, m) := match m.frames with
    | f :: rest =>
      match f.shared with
      | some id => (id, m)
      | none =>
        let id := m.tables.size
        (id, { m with
          tables := m.tables.push [], frames := { f with shared := some id } :: rest })
    | [] => (m.tables.size, { m with tables := m.tables.push [] })
  let keep (t : Entries Value) : Entries Value :=
    names.foldl (fun t n =>
      if n = "caller" || Entries.has n t then t
      else Entries.insert n ((m.lookup? s n).getD .undefined) t) t
  let id := m.macros.size
  set { m with
    tables := m.tables.modify shared keep
    macros := m.macros.push ⟨name, signature, body, shared, names.contains "caller"⟩ }
  return .macroRef id

mutual

/-- Runs a piece of a stencil. -/
def exec (s : Setting) (call : Invoker) : Stmt → Run Unit
  | .text raw => write raw
  | .print e => do print (← eval s call e)
  | .forEach target source filter isRecursive body orElse => do
    let v ← view (← eval s call source)
    let l ← lift (Args.asItems v)
    let l ← match filter with
      | none => pure l
      | some test => within {} (keepItems (fun v => do
          assign s call target v
          return (← view (← eval s call test)).isTrue) l)
    runLoop (if isRecursive then some (target, body) else none) (fun v => do
      assign s call target v
      execAll s call body) l
    if l.isEmpty then execAll s call orElse
  | .choose test yes no => do
    if (← view (← eval s call test)).isTrue then execAll s call yes else execAll s call no
  | .bindIn bindings body =>
    within {} do
      for b in bindings do
        assign s call b.1 (← eval s call b.2)
      execAll s call body
  | .assign target value => do assign s call target (← eval s call value)
  | .capture target filters body => do
    let v ← capture (execAll s call body)
    assign s call target (← applyFilters s call filters v)
  | .escaping mode body => do
    let escapes ← lift (escapingMode (← eval s call mode))
    let before := (← get).escapes
    modify fun m => { m with escapes }
    execAll s call body
    modify fun m => { m with escapes := before }
  | .filtered filters body => do
    let v ← capture (execAll s call body)
    print (← applyFilters s call filters v)
  | .block name => do print (← call (.block name))
  | .declare name signature body => do store name (← makeMacro s name signature body)
  | .callWith callee signature body => do
    let caller : Arg := .named "caller" (.const (← makeMacro s "caller" signature body))
    let v ← match callee with
      | .callName name args => do
        callName s call name (← evalArgs s call (args ++ [caller]))
      | .callMethod owner name args => do
        let v ← eval s call owner
        callMethod call v name (← evalArgs s call (args ++ [caller]))
      | .callValue callee args => do
        let v ← eval s call callee
        callValue call v (← evalArgs s call (args ++ [caller]))
      | e => eval s call e
    print v
  | .call callee => do let _ ← eval s call callee
  | .extend name => do
    match (← eval s call name).asText? with
    | some _ => throw .stencilNotFound
    | none => throw .invalidOperation
  | .embed name mayBeMissing => do lift (findStencil mayBeMissing (← view (← eval s call name)))
  | .load name => do lift (findStencil false (← view (← eval s call name)))

def execAll (s : Setting) (call : Invoker) : List Stmt → Run Unit
  | [] => return ()
  | p :: rest => do
    exec s call p
    execAll s call rest

end

/-- The values of the parameters of a macro, and its caller. -/
def bindParams (d : Macro) (args : Args) : Except Fault (List Value × Value) := do
  let params := d.signature.params.map fun
    | .name n => n
    | _ => ""
  if params.length < args.plain.length then throw .tooManyArguments
  let named (n : String) : Option Value := (args.named.find? (·.1 == n)).map (·.2)
  let values ← params.zipIdx.mapM fun (n, i) =>
    match args.plain[i]?, named n with
    | some _, some _ => .error .tooManyArguments
    | some v, none => .ok v
    | none, some v => .ok v
    | none, none => .ok Value.undefined
  let known := if d.usesCaller then "caller" :: params else params
  if !(args.named.all fun p => known.contains p.1) then throw .tooManyArguments
  return (values, (named "caller").getD .undefined)

/-- Stores arguments from the last parameter to the first; a default counts where there is
none. -/
def storeParams (s : Setting) (call : Invoker) :
    List (Target × Value) → List Expr → Run Unit
  | [], _ => return ()
  | (t, v) :: rest, defaults => do
    match defaults with
    | d :: defaults =>
      let v ← if v.isUndefined then eval s call d else pure v
      assign s call t v
      storeParams s call rest defaults
    | [] =>
      assign s call t v
      storeParams s call rest []

/-- Runs a step with nothing but one frame. -/
def inFrame (f : Frame) (cost : Nat) (step : Run Unit) : Run Value := do
  let before ← get
  let outerDepth := before.depth + cost
  if Machine.maxDepth < outerDepth + 1 then throw .invalidOperation
  modify fun m => { m with frames := [f], outerDepth }
  let v ← capture step
  modify fun m => { m with frames := before.frames, outerDepth := before.outerDepth }
  return v

/-- Goes where an invocation leads, with at most `fuel` more on the way. -/
def invoke (s : Setting) : Nat → Invoker
  | 0, _ => throw .invalidOperation
  | fuel + 1, .expand id args => do
    match (← get).macros[id]? with
    | none => throw .invalidOperation
    | some d =>
      let (values, caller) ← lift (bindParams d args)
      let call := invoke s fuel
      inFrame { base := .table d.shared } 4 do
        if d.usesCaller then store "caller" caller
        storeParams s call (d.signature.params.zip values).reverse d.signature.defaults.reverse
        execAll s call d.body
  | fuel + 1, .block name => do
    match s.blocks.find? (·.1 == name) with
    | some (_, body) => capture (within {} (execAll s (invoke s fuel) body))
    | none => throw .unknownBlock
  | fuel + 1, .again target body source => do
    let call := invoke s fuel
    let l ← lift (Args.asItems (← view source))
    capture (runLoop (some (target, body)) (fun v => do
      assign s call target v
      execAll s call body) l)

end Run

/-- The machine that a run starts with. -/
def Machine.start : Machine := { frames := [{ base := .root }] }

/-- What a stencil prints. -/
def Tree.render (t : Tree) (lenient : Bool) (root : List (String × Value)) :
    Except Fault String := do
  let s : Setting := { lenient, root, blocks := t.blocks }
  let (_, m) ← (Run.execAll s (Run.invoke s (Machine.maxDepth + 8)) t.body).run Machine.start
  return m.output

/-- The value of an expression, with references replaced by what they stand for. -/
def Expr.value (e : Expr) (lenient : Bool) (root : List (String × Value)) :
    Except Fault Value := do
  let s : Setting := { lenient, root }
  let (v, m) ← (Run.eval s (Run.invoke s (Machine.maxDepth + 8)) e).run Machine.start
  return m.view v

end Scaffold.Stencil
