import CallProvenance.Archive.Ppmd.Heap

/-! A model that predicts each byte from those before it. A context stands for the bytes that came
last and counts which byte has followed them; its suffix forgets the oldest of these bytes. A symbol of
a context leads on to the context with that byte, or to the text where it was seen first, so that
longer contexts are only made when they are met again. -/
namespace CallProvenance
namespace Ppmd

/-- Frequencies above this are halved. -/
def maxFrequency : Nat := 124

/-- A byte that may follow, how often it has, and where that leads: a place in the text, a context
behind it, or zero. -/
structure Symbol where
  byte : Nat
  frequency : Nat
  successor : Nat
  deriving DecidableEq, Repr, Inhabited

def symbolSize : Nat := 6

/-- Set for bytes in the upper three quarters. -/
def heightFlag (byte : Nat) : Nat := if 0x40 ≤ byte then 0x08 else 0

structure Estimate where
  sum : Nat
  shift : Nat
  count : Nat
  deriving DecidableEq, Repr

/-! ## Contexts and symbols in the heap -/

def totalFrequency (symbols : Array Symbol) : Nat :=
  symbols.foldl (fun total symbol => total + symbol.frequency) 0

namespace Heap

@[inline] def frequency (heap : Heap) (symbol : Nat) : Nat := heap.byte (symbol + 1)

@[inline] def setFrequency (heap : Heap) (symbol value : Nat) : Heap :=
  heap.setByte (symbol + 1) value

@[inline] def successor (heap : Heap) (symbol : Nat) : Nat := heap.word (symbol + 2)

@[inline] def setSuccessor (heap : Heap) (symbol value : Nat) : Heap :=
  heap.setWord (symbol + 2) value

@[inline] def symbol (heap : Heap) (place : Nat) : Symbol :=
  ⟨heap.byte place, heap.frequency place, heap.successor place⟩

@[inline] def setSymbol (heap : Heap) (place : Nat) (symbol : Symbol) : Heap :=
  ((heap.setByte place symbol.byte).setFrequency place symbol.frequency).setSuccessor place
    symbol.successor

/-- The number of symbols of a context, less one. -/
@[inline] def more (heap : Heap) (context : Nat) : Nat := heap.byte context

@[inline] def setMore (heap : Heap) (context value : Nat) : Heap := heap.setByte context value

@[inline] def flags (heap : Heap) (context : Nat) : Nat := heap.byte (context + 1)

@[inline] def setFlags (heap : Heap) (context value : Nat) : Heap := heap.setByte (context + 1) value

/-- The sum of the frequencies and of that of leaving the context. -/
@[inline] def total (heap : Heap) (context : Nat) : Nat := heap.pair (context + 2)

@[inline] def setTotal (heap : Heap) (context value : Nat) : Heap := heap.setPair (context + 2) value

@[inline] def symbols (heap : Heap) (context : Nat) : Nat := heap.word (context + 4)

@[inline] def setSymbols (heap : Heap) (context value : Nat) : Heap := heap.setWord (context + 4) value

/-- The only symbol of a context stands in the context itself. -/
@[inline] def only (context : Nat) : Nat := context + 2

@[inline] def suffix (heap : Heap) (context : Nat) : Nat := heap.word (context + 8)

@[inline] def setSuffix (heap : Heap) (context value : Nat) : Heap := heap.setWord (context + 8) value

/-- The first place of the symbol of a byte, at most `limit` symbols on. -/
def findSymbol (heap : Heap) (byte : Nat) : Nat → Nat → Nat
  | 0, place => place
  | limit + 1, place =>
    if heap.byte place = byte then place else findSymbol heap byte limit (place + symbolSize)

def symbolOf (heap : Heap) (context byte : Nat) : Nat :=
  heap.findSymbol byte 255 (heap.symbols context)

def readSymbols (heap : Heap) (place count : Nat) : Array Symbol :=
  (Array.range count).map fun k => heap.symbol (place + symbolSize * k)

def writeSymbols (heap : Heap) (place : Nat) (symbols : Array Symbol) : Heap :=
  symbols.size.fold (fun k _ heap => heap.setSymbol (place + symbolSize * k) symbols[k]) heap

def swap (heap : Heap) (first second : Nat) : Heap :=
  let held := heap.symbol first
  let heap := heap.setSymbol first (heap.symbol second)
  heap.setSymbol second held

/-- Adds to the frequency of a symbol of a context with several, unless it is large. -/
def promote (heap : Heap) (context symbol amount : Nat) : Heap :=
  if heap.frequency symbol < maxFrequency - 9 then
    let heap := heap.setFrequency symbol (heap.frequency symbol + amount)
    heap.setTotal context (heap.total context + amount)
  else heap

def setOnly (heap : Heap) (context : Nat) (symbol : Symbol) : Heap :=
  let heap := heap.setFlags context ((heap.flags context &&& 0x10) + heightFlag symbol.byte)
  heap.setSymbol (only context) symbol

/-- Brings block size, sum and flags of a context in line with its symbols, whose frequencies are halved
if `scale` is one. -/
def refresh (heap : Heap) (context oldUnits scale : Nat) : Heap :=
  let more := heap.more context
  let (place, heap) := heap.shrink (heap.symbols context) oldUnits ((more + 2) / 2)
  let heap := heap.setSymbols context place
  let symbols := heap.readSymbols place (more + 1)
  let before := totalFrequency symbols
  let escape := heap.total context - before
  let symbols := symbols.map fun symbol =>
    { symbol with frequency := (symbol.frequency + scale) >>> scale }
  let heap := heap.writeSymbols place symbols
  let heap := heap.setTotal context
    (totalFrequency symbols + ((escape + scale) >>> scale))
  let height := symbols.foldl (fun flags symbol => flags ||| heightFlag symbol.byte) 0
  heap.setFlags context ((heap.flags context &&& (0x10 + 0x04 * scale)) + height)

end Heap

/-! ## The model -/

structure Model where
  heap : Heap
  order : Nat
  /-- When the memory is used up, the model is cut down; otherwise it begins anew. -/
  cutsDown : Bool
  current : Nat := 0
  longest : Nat := 0
  found : Nat := 0
  /-- By how much the current context is shorter than it might be. -/
  fall : Nat := 0
  /-- The frequency with which a context with one symbol is left. -/
  escape : Nat := 0
  /-- Whether the last byte was likely. -/
  success : Nat := 0
  /-- How many bytes in a row have been likely; negative at first. -/
  run : Int := 0
  estimates : Array Estimate := #[]
  chances : Array Nat := #[]

/-- Groups of numbers, whose sizes grow by one. -/
def groups : Array Nat :=
  (List.range 5 ++ (List.range 23).flatMap fun k => List.replicate (k + 1) (k + 5)).toArray

def group (n : Nat) : Nat := groups.getD n 0

def coarseGroup (more : Nat) : Nat :=
  if more = 0 then 0 else if more = 1 then 2 else if more < 11 then 4 else 6

def firstEscapes : Array Nat :=
  #[0x3cdd, 0x1f3f, 0x59bf, 0x48f3, 0x64a1, 0x5abc, 0x6632, 0x6051]

def groupEnd (index : Nat) : Nat := groups.toList.countP (· ≤ index)

def firstChances : Array Nat :=
  ((List.range 25).flatMap fun index =>
    let divisor := groupEnd index + 1
    (List.range 64).map fun k => 1 <<< 14 - firstEscapes.getD (k % 8) 0 / divisor).toArray

def firstEstimates : Array Estimate :=
  ((List.range 24).flatMap fun index =>
    List.replicate 32 ⟨(2 * (groupEnd (index + 3) - 3) + 5) * 8, 3, 7⟩).toArray

/-- No context is that long, and none has that many symbols. -/
def chainLimit : Nat := 512

namespace Model

def firstRun (model : Model) : Int := -(min model.order 12 : Nat) - 1

/-- Begins anew with one context, after which any byte may follow. -/
def restart (model : Model) : Model :=
  let heap := model.heap.restart
  let root := heap.high - unitSize
  let symbols := heap.low
  let heap := { heap with high := root, low := symbols + unitSize * 128 }
  let heap := heap.setSuffix root 0
  let heap := heap.setMore root 255
  let heap := heap.setFlags root 0
  let heap := heap.setTotal root 257
  let heap := heap.setSymbols root symbols
  let heap := heap.writeSymbols symbols ((Array.range 256).map fun byte => ⟨byte, 1, 0⟩)
  { model with
    heap
    current := root
    longest := root
    found := symbols
    fall := model.order
    run := model.firstRun
    success := 0
    estimates := firstEstimates
    chances := firstChances }

/-! ### Cutting down -/

/-- Cuts branches that lead into the text, and those of the greatest order, from a context on. The
answer is the context, or zero if nothing is left of it. -/
def cutOff (order : Nat) : Nat → Nat → Nat → Heap → Nat × Heap
  | 0, context, _, heap => (context, heap)
  | limit + 1, context, depth, heap =>
    let cutSuccessor (successor : Nat) (heap : Heap) : Nat × Heap :=
      if depth < order then cutOff order limit successor (depth + 1) heap else (0, heap)
    let more := heap.more context
    if more = 0 then
      let successor := heap.successor (Heap.only context)
      if heap.units ≤ successor then
        let (successor, heap) := cutSuccessor successor heap
        let heap := heap.setSuccessor (Heap.only context) successor
        if successor ≠ 0 || depth ≤ 9 then (context, heap) else (0, heap.freeUnit context)
      else (0, heap.freeUnit context)
    else
      let units := (more + 2) / 2
      let (place, heap) := heap.moveUp (heap.symbols context) units
      let heap := heap.setSymbols context place
      let (kept, heap) := (more + 1).fold
        (fun k _ (kept, heap) =>
          let symbol := place + symbolSize * (more - k)
          let successor := heap.successor symbol
          if successor < heap.units then
            let heap := heap.setSuccessor symbol 0
            (kept - 1, heap.swap symbol (place + symbolSize * (kept - 1)))
          else
            let (successor, heap) := cutSuccessor successor heap
            (kept, heap.setSuccessor symbol successor))
        (more + 1, heap)
      if kept = more + 1 || depth = 0 then (context, heap)
      else if kept = 0 then (0, (heap.insert place (kindOf units)).freeUnit context)
      else
        let heap := heap.setMore context (kept - 1)
        if kept = 1 then
          let symbol := heap.symbol place
          let heap := heap.setOnly context
            { symbol with frequency := (symbol.frequency + 11) / 8 }
          (context, heap.insert place (kindOf units))
        else
          let scale := if 16 * (kept - 1) < heap.total context then 1 else 0
          (context, heap.refresh context units scale)

/-- Cuts down until a quarter of the memory is free. -/
def cutDown (order root : Nat) : Nat → Heap → Heap
  | 0, heap => heap
  | limit + 1, heap =>
    let (_, heap) := cutOff order (order + 1) root 0 heap
    let heap := heap.expandText
    if 3 * (heap.size / 4) < heap.used then cutDown order root limit heap else heap

def takeBack (stop : Nat) : Nat → Nat → Heap → Heap
  | 0, _, heap => heap
  | limit + 1, context, heap =>
    if context = stop then heap
    else
      let more := heap.more context - 1
      let heap := heap.setMore context more
      let heap :=
        if more = 0 then
          let place := heap.symbols context
          let symbol := heap.symbol place
          let heap := heap.setOnly context
            { symbol with frequency := (symbol.frequency + 11) / 8 }
          heap.freeUnit place
        else heap.refresh context ((more + 3) / 2) 0
      takeBack stop limit (heap.suffix context) heap

def loosen (stop : Nat) : Nat → Nat → Heap → Heap
  | 0, _, heap => heap
  | limit + 1, context, heap =>
    if context = stop then heap
    else
      let more := heap.more context
      let heap :=
        if more = 0 then
          let symbol := Heap.only context
          heap.setFrequency symbol ((heap.frequency symbol + 1) / 2)
        else
          let total := heap.total context + 4
          let heap := heap.setTotal context total
          if 128 + 4 * more < total then heap.refresh context ((more + 2) / 2) 1 else heap
      loosen stop limit (heap.suffix context) heap

def rootOf (heap : Heap) : Nat → Nat → Nat
  | 0, context => context
  | limit + 1, context =>
    if heap.suffix context = 0 then context else rootOf heap limit (heap.suffix context)

/-- What is done when the memory is used up: the symbol that was being added is taken back up to a
context, and the model begins anew or is cut down. -/
def restore (model : Model) (stop : Nat) : Model :=
  let ⟨heap, order, cutsDown, current, longest, found, _, escape, success, run, estimates, chances⟩ :=
    model
  let heap := { heap with text := 0 }
  let heap := takeBack stop chainLimit longest heap
  let heap := loosen current chainLimit stop heap
  let begins := !cutsDown || heap.used < heap.size / 2
  let longest := rootOf heap chainLimit longest
  if begins then
    restart ⟨heap, order, cutsDown, current, longest, found, order, escape, success, run, estimates,
      chances⟩
  else
    let heap := cutDown order longest heap.size heap
    let heap := { heap with patience := 0 }
    ⟨heap, order, cutsDown, current, longest, found, order, escape, success, run, estimates, chances⟩

/-! ### Growing -/

/-- Goes down the suffixes of a context as long as their symbol of the found byte leads to the same
place in the text. The answer is these symbols, the shortest context first, and the context that is
behind them; `known` is the symbol in the first suffix if that has been found already. -/
def climb (byte target : Nat) :
    Nat → Option Nat → Nat → List Nat → Heap → (List Nat × Nat × Heap)
  | 0, _, context, passed, heap => (passed, context, heap)
  | limit + 1, known, context, passed, heap =>
    let suffix := heap.suffix context
    if suffix = 0 then (passed, context, heap)
    else
      let (symbol, heap) :=
        match known with
        | some symbol => (symbol, heap)
        | none =>
          if heap.more suffix ≠ 0 then
            let symbol := heap.symbolOf suffix byte
            (symbol, heap.promote suffix symbol 1)
          else
            let symbol := Heap.only suffix
            let frequency := heap.frequency symbol
            let grows := heap.more (heap.suffix suffix) = 0 && frequency < 24
            (symbol, if grows then heap.setFrequency symbol (frequency + 1) else heap)
      let successor := heap.successor symbol
      if successor ≠ target then (passed, successor, heap)
      else climb byte target limit none suffix (symbol :: passed) heap

/-- The first frequency of a byte in a new context, from that in a shorter one. -/
def firstFrequency (heap : Heap) (context byte : Nat) : Nat :=
  if heap.more context = 0 then heap.frequency (Heap.only context)
  else
    let own := heap.frequency (heap.symbolOf context byte) - 1
    let others := heap.total context - heap.more context - own
    if 2 * own ≤ others then 1 + (if others < 5 * own then 1 else 0)
    else 1 + (own + 2 * others - 3) / others

/-- Makes a new context for each symbol, the shorter ones first. -/
def addContexts (symbol : Symbol) (flags : Nat) : List Nat → Nat → Heap → Option Nat × Heap
  | [], context, heap => (some context, heap)
  | above :: rest, context, heap =>
    match heap.takeContext with
    | (none, heap) => (none, heap)
    | (some place, heap) =>
      let heap := heap.setMore place 0
      let heap := heap.setFlags place flags
      let heap := heap.setSymbol (Heap.only place) symbol
      let heap := heap.setSuffix place context
      addContexts symbol flags rest place (heap.setSuccessor above place)

def createSuccessors (found : Nat) (skips : Bool) (known : Option Nat) (context : Nat) (heap : Heap) :
    Option Nat × Heap :=
  let target := heap.successor found
  let foundByte := heap.byte found
  let (passed, context, heap) :=
    climb foundByte target chainLimit known context (if skips then [] else [found]) heap
  if passed.isEmpty then (some context, heap)
  else
    let byte := heap.byte target
    let flags := 2 * heightFlag foundByte + heightFlag byte
    let symbol : Symbol := ⟨byte, firstFrequency heap context byte, target + 1⟩
    addContexts symbol flags passed context heap

/-- Lets the symbols of the found byte lead to the text, down to a context where it leads somewhere.
The answer is that symbol, its context and how many contexts were passed. -/
def leadToText (byte target : Nat) :
    Nat → Option Nat → Nat → Nat → Heap → (Option Nat × Nat × Nat × Heap)
  | 0, _, context, passed, heap => (none, context, passed, heap)
  | limit + 1, known, context, passed, heap =>
    let suffix := heap.suffix context
    if suffix = 0 then (none, context, passed, heap)
    else
      let (symbol, heap) :=
        match known with
        | some symbol => (symbol, heap)
        | none =>
          if heap.more suffix ≠ 0 then
            let symbol := heap.symbolOf suffix byte
            (symbol, heap.promote suffix symbol 2)
          else
            let symbol := Heap.only suffix
            let frequency := heap.frequency symbol
            (symbol, if frequency < 32 then heap.setFrequency symbol (frequency + 1) else heap)
      if heap.successor symbol ≠ 0 then (some symbol, suffix, passed, heap)
      else leadToText byte target limit none suffix (passed + 1) (heap.setSuccessor symbol target)

/-- The next context where the found symbol has led nowhere so far. -/
def reduceOrder (model : Model) (known : Option Nat) (context : Nat) : Option Nat × Model :=
  let ⟨heap, order, cutsDown, current, longest, found, fall, escape, success, run, estimates, chances⟩ :=
    model
  let target := heap.text
  let byte := heap.byte found
  let heap := heap.setSuccessor found target
  let (symbol?, suffix, passed, heap) := leadToText byte target chainLimit known context 0 heap
  let fall := fall + 1 + passed
  match symbol? with
  | none =>
    (some suffix,
      ⟨heap, order, cutsDown, current, longest, found, fall, escape, success, run, estimates, chances⟩)
  | some symbol =>
    let heap :=
      if heap.successor symbol ≤ target then
        let (successor, heap) := createSuccessors symbol false none suffix heap
        heap.setSuccessor symbol (successor.getD 0)
      else heap
    let successor := heap.successor symbol
    let heap :=
      if fall = 1 && context = longest then
        let heap := heap.setSuccessor found successor
        { heap with text := heap.text - 1 }
      else heap
    (if successor = 0 then none else some successor,
      ⟨heap, order, cutsDown, current, longest, found, fall, escape, success, run, estimates, chances⟩)

/-- What is added to the contexts above the one in which a byte was found. -/
structure Addition where
  byte : Nat
  frequency : Nat
  others : Nat
  more : Nat
  successor : Nat
  escape : Nat

/-- Makes room for one more symbol in a context. The answer is the new sum of its frequencies, if there
is memory for it. -/
def makeRoom (addition : Addition) (context : Nat) (heap : Heap) : Option Nat × Heap :=
  let more := heap.more context
  if more = 0 then
    match heap.take 0 with
    | (none, heap) => (none, heap)
    | (some place, heap) =>
      let symbol := heap.symbol (Heap.only context)
      let frequency := if symbol.frequency < maxFrequency / 4 - 1 then 2 * symbol.frequency
        else maxFrequency - 4
      let heap := heap.setSymbol place { symbol with frequency }
      let heap := heap.setSymbols context place
      (some (frequency + addition.escape + (if 2 < addition.more then 1 else 0)), heap)
  else
    let total := heap.total context + (if 3 * more + 1 < addition.more then 1 else 0)
    let units := (more + 1) / 2
    let kind := kindOf units
    if more % 2 = 1 && kind ≠ kindOf (units + 1) then
      match heap.take (kind + 1) with
      | (none, heap) => (none, heap)
      | (some place, heap) =>
        let old := heap.symbols context
        let heap := Heap.copy old place (unitSize * units) heap
        let heap := heap.insert old kind
        (some total, heap.setSymbols context place)
    else (some total, heap)

/-- Adds a symbol to the contexts from one up to another. The answer is the context for which there was
no memory, if there is one. -/
def addSymbols (addition : Addition) (stop : Nat) : Nat → Nat → Heap → Option Nat × Heap
  | 0, _, heap => (none, heap)
  | limit + 1, context, heap =>
    if context = stop then (none, heap)
    else
      let more := heap.more context
      match makeRoom addition context heap with
      | (none, heap) => (some context, heap)
      | (some total, heap) =>
        let scaled := 2 * addition.frequency * (total + 6)
        let sum := addition.others + total
        let atLeast (condition : Bool) : Nat := if condition then 1 else 0
        let (frequency, total) :=
          if scaled < 6 * sum then (1 + atLeast (sum < scaled) + atLeast (4 * sum ≤ scaled), total + 4)
          else
            let frequency := 4 + atLeast (9 * sum < scaled) + atLeast (12 * sum < scaled) +
              atLeast (15 * sum < scaled)
            (frequency, total + frequency)
        let place := heap.symbols context + symbolSize * (more + 1)
        let heap := heap.setSymbol place ⟨addition.byte, frequency, addition.successor⟩
        let heap := heap.setFlags context (heap.flags context ||| heightFlag addition.byte)
        let heap := heap.setTotal context total
        let heap := heap.setMore context (more + 1)
        addSymbols addition stop limit (heap.suffix context) heap

/-- Counts the found byte in the next shorter context too. The answer is its symbol there. -/
def countInSuffix (heap : Heap) (current found : Nat) : Option Nat × Heap :=
  let suffix := heap.suffix current
  if maxFrequency / 4 ≤ heap.frequency found || suffix = 0 then (none, heap)
  else if heap.more suffix = 0 then
    let symbol := Heap.only suffix
    let frequency := heap.frequency symbol
    (some symbol, if frequency < 32 then heap.setFrequency symbol (frequency + 1) else heap)
  else
    let symbol := heap.symbolOf suffix (heap.byte found)
    let before := symbol - symbolSize
    let (symbol, heap) :=
      if symbol ≠ heap.symbols suffix && heap.frequency before ≤ heap.frequency symbol then
        (before, heap.swap symbol before)
      else (symbol, heap)
    (some symbol, heap.promote suffix symbol 2)

def follow (model : Model) (known : Option Nat) (successor : Nat) : Option Nat × Model :=
  if successor = 0 then model.reduceOrder known model.current
  else if successor < model.heap.units then
    let ⟨heap, order, cutsDown, current, longest, found, fall, escape, success, run, estimates,
      chances⟩ := model
    let (next, heap) := createSuccessors found false known current heap
    (next, ⟨heap, order, cutsDown, current, longest, found, fall, escape, success, run, estimates,
      chances⟩)
  else (some successor, model)

/-- Learns the found byte in all contexts that did not predict it, and goes on. -/
def learn (model : Model) : Model :=
  let ⟨heap, order, cutsDown, current, longest, found, fall, escape, success, run, estimates, chances⟩ :=
    model
  let ⟨byte, frequency, successor⟩ := heap.symbol found
  let (known, heap) := countInSuffix heap current found
  if fall = 0 && successor ≠ 0 then
    match createSuccessors found true known current heap with
    | (some next, heap) =>
      let heap := heap.setSuccessor found next
      ⟨heap, order, cutsDown, next, next, found, fall, escape, success, run, estimates, chances⟩
    | (none, heap) =>
      let heap := heap.setSuccessor found 0
      restore ⟨heap, order, cutsDown, current, longest, found, fall, escape, success, run, estimates,
        chances⟩ longest
  else
    let text := heap.text
    let heap := heap.setByte text byte
    let heap := { heap with text := text + 1 }
    let model : Model :=
      ⟨heap, order, cutsDown, current, longest, found, fall, escape, success, run, estimates, chances⟩
    if model.heap.units ≤ text + 1 then model.restore longest
    else
      match model.follow known successor with
      | (none, model) => model.restore longest
      | (some next, model) =>
        let ⟨heap, order, cutsDown, current, longest, found, fall, escape, success, run, estimates,
          chances⟩ := model
        let fall := fall - 1
        let heap := if fall = 0 && longest ≠ current then { heap with text := heap.text - 1 } else heap
        let more := heap.more current
        let addition : Addition := {
          byte, frequency, more, escape
          others := heap.total current - more - frequency
          successor := if fall = 0 then next else text + 1 }
        match addSymbols addition current chainLimit longest heap with
        | (none, heap) =>
          ⟨heap, order, cutsDown, next, next, found, fall, escape, success, run, estimates, chances⟩
        | (some stop, heap) =>
          restore ⟨heap, order, cutsDown, current, longest, found, fall, escape, success, run,
            estimates, chances⟩ stop

def settle (model : Model) : Model := { model with current := model.longest }

def advance (model : Model) : Model :=
  let successor := model.heap.successor model.found
  if model.fall = 0 && model.heap.units ≤ successor then
    { model with current := successor, longest := successor }
  else model.learn.settle

/-! ### Frequencies -/

def insertSorted (sorted : Array Symbol) (symbol : Symbol) : Array Symbol :=
  let keep := sorted.countP (symbol.frequency ≤ ·.frequency)
  sorted.extract 0 keep ++ #[symbol] ++ sorted.extract keep sorted.size

/-- Halves the frequencies of the current context. The found symbol comes first, the others are sorted;
those that become zero are dropped. -/
def rescale (model : Model) : Model :=
  let ⟨heap, order, cutsDown, current, longest, found, fall, escape, success, run, estimates, chances⟩ :=
    model
  let more := heap.more current
  let place := heap.symbols current
  let index := (found - place) / symbolSize
  let given := heap.readSymbols place (more + 1)
  let first := given.getD index default
  let rest := (given.extract 0 index) ++ given.extract (index + 1) given.size
  let leaving := heap.total current - totalFrequency given
  let round := if fall = 0 then 0 else 1
  let first := { first with frequency := (first.frequency + 4 + round) / 2 }
  let sorted := rest.foldl
    (fun sorted symbol =>
      insertSorted sorted { symbol with frequency := (symbol.frequency + round) / 2 })
    #[first]
  let sum := totalFrequency sorted
  let kept := sorted.filter (·.frequency ≠ 0)
  let dropped := sorted.size - kept.size
  let leaving := leaving + dropped
  let heap := heap.writeSymbols place sorted
  let oldUnits := (more + 2) / 2
  if dropped ≠ 0 && kept.size = 1 then
    let only := kept.getD 0 default
    let frequency := min ((2 * only.frequency + leaving - 1) / leaving) (maxFrequency / 3)
    let heap := heap.setMore current 0
    let heap := heap.setOnly current { only with frequency }
    let heap := heap.insert place (kindOf oldUnits)
    ⟨heap, order, cutsDown, current, longest, Heap.only current, fall, escape, success, run, estimates,
      chances⟩
  else
    let heap :=
      if dropped = 0 then heap
      else
        let heap := heap.setMore current (kept.size - 1)
        let units := (kept.size + 1) / 2
        let (place, heap) := heap.shrink place oldUnits units
        let heap := heap.setSymbols current place
        let height := kept.foldl (fun flags symbol => flags ||| heightFlag symbol.byte) 0
        heap.setFlags current ((heap.flags current &&& 0xf7) ||| height)
    let heap := heap.setTotal current (sum + leaving - leaving / 2)
    let heap := heap.setFlags current (heap.flags current ||| 0x04)
    let found := heap.symbols current
    ⟨heap, order, cutsDown, current, longest, found, fall, escape, success, run, estimates, chances⟩

def count (model : Model) : Model :=
  let ⟨heap, order, cutsDown, current, longest, found, fall, escape, success, run, estimates, chances⟩ :=
    model
  let heap := heap.setFrequency found (heap.frequency found + 4)
  let heap := heap.setTotal current (heap.total current + 4)
  ⟨heap, order, cutsDown, current, longest, found, fall, escape, success, run, estimates, chances⟩

def foundFirst (model : Model) : Model :=
  let frequency := model.heap.frequency model.found
  let success := if model.heap.total model.current ≤ 2 * frequency then 1 else 0
  let model := { model with success, run := model.run + success }
  let model := model.count
  if maxFrequency < frequency + 4 then model.rescale.advance else model.advance

/-- Another symbol of the current context was found; it moves up if it is more frequent now than the one
before it. -/
def foundLater (model : Model) : Model :=
  let model := model.count
  let before := model.found - symbolSize
  let frequency := model.heap.frequency model.found
  if model.heap.frequency before < frequency then
    let ⟨heap, order, cutsDown, current, longest, found, fall, escape, success, run, estimates,
      chances⟩ := model
    let heap := heap.swap found before
    let model : Model :=
      ⟨heap, order, cutsDown, current, longest, before, fall, escape, success, run, estimates, chances⟩
    if maxFrequency < frequency then model.rescale.advance else model.advance
  else model.advance

def foundOnly (model : Model) : Model :=
  let ⟨heap, order, cutsDown, current, longest, _, fall, escape, _, run, estimates, chances⟩ := model
  let found := Heap.only current
  let frequency := heap.frequency found
  let heap := if frequency < 196 then heap.setFrequency found (frequency + 1) else heap
  advance ⟨heap, order, cutsDown, current, longest, found, fall, escape, 1, run + 1, estimates, chances⟩

def foundAfterEscape (model : Model) : Model :=
  let frequency := model.heap.frequency model.found
  let model := model.count
  let model := if maxFrequency < frequency + 4 then model.rescale else model
  { model with run := model.firstRun }.learn.settle

def chanceIndex (model : Model) : Nat :=
  let heap := model.heap
  let frequency := heap.frequency (Heap.only model.current)
  64 * group (frequency - 1) + coarseGroup (heap.more (heap.suffix model.current)) + model.success +
    heap.flags model.current + (if model.run < 0 then 0x20 else 0)

/-- Which of the estimates belongs to the current context, when so many symbols less one have been ruled
out; none for the context of no bytes at all. -/
def estimateIndex (model : Model) (masked : Nat) : Option Nat :=
  let heap := model.heap
  let more := heap.more model.current
  if more = 255 then none
  else
    let isFull := if 11 * (more + 1) < heap.total model.current then 1 else 0
    let isSmall := if 2 * more < heap.more (heap.suffix model.current) + masked then 2 else 0
    some (32 * (group (more + 2) - 3) + isFull + isSmall + heap.flags model.current)

end Model
end Ppmd
end CallProvenance
