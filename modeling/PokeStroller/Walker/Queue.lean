import PokeStroller.Lib.Chain
import PokeStroller.Lib.Runs
import PokeStroller.Walker.Interrupts

/-!
# The queue of queue.c

`addElement`, `popElement` and `isEmpty` over the elements themselves, and the
lists that the rest of the model uses in their place.
-/

namespace PokeStroller

-- ---------------------------------------------------------------------------
-- queue.c
-- ---------------------------------------------------------------------------

structure Element (ι : Type) where
  value : Int
  next : Option ι

structure Queue (ι : Type) where
  first : Option ι := none
  last : Option ι := none

/-- A queue, and the heap on which its elements are. -/
structure QueueHeap (ι : Type) extends Queue ι where
  heap : Heap ι (Element ι)

namespace QueueHeap

variable {ι : Type} [DecidableEq ι]

/-- `malloc` has returned a cell that was not live, with anything in it. -/
def malloc (s : QueueHeap ι) (cell : ι) (content : Element ι) : QueueHeap ι :=
  { s with heap := Function.update s.heap cell (some content) }

def assign (s : QueueHeap ι) (cell : ι) (f : Element ι → Element ι) : Option (QueueHeap ι) :=
  (s.heap.modify? cell f).map fun heap => { s with heap := heap }

def addElement (s : QueueHeap ι) (newElement : ι) (value : Int) : Option (QueueHeap ι) := do
  let s ← s.assign newElement fun e => { e with value := value }
  let s ← s.assign newElement fun e => { e with next := none }
  let s ← match s.last with
    | some last => s.assign last fun e => { e with next := some newElement }
    | none => some s
  let s := if s.first = none then { s with first := some newElement } else s
  return { s with last := some newElement }

def popElement (s : QueueHeap ι) : Option (Int × QueueHeap ι) :=
  match s.first with
  | none => some (0, s)
  | some first => do
    let element ← s.heap first
    let newFirst := element.next
    let heap ← s.heap.free? first
    let s := { s with heap := heap, first := newFirst }
    let s := if newFirst = none then { s with last := none } else s
    return (element.value, s)

def isEmpty (s : QueueHeap ι) : Bool := s.first.isNone

end QueueHeap

-- ---------------------------------------------------------------------------
-- Runs of calls
-- ---------------------------------------------------------------------------

inductive QueueOp
  | addElement (value : Int)
  | popElement
  | isEmpty
  deriving DecidableEq, Repr

inductive QueueResult
  | void
  | int (value : Int)
  | bool (value : Bool)
  deriving DecidableEq, Repr

def QueueOp.onList (queue : List Int) : QueueOp → QueueResult × List Int
  | .addElement value => (.void, PokeStroller.addElement queue value)
  | .popElement => (.int (PokeStroller.popElement queue).1, (PokeStroller.popElement queue).2)
  | .isEmpty => (.bool (PokeStroller.isEmpty queue), queue)

def ListStep (queue : List Int) (call : QueueOp × QueueResult) (queue' : List Int) : Prop :=
  call.1.onList queue = (call.2, queue')

namespace QueueHeap

variable {ι : Type}

/-- From `first` along `next` the queue comes to these elements, the last of them
at `last`, and they are what is live beside `others`. -/
structure Represents (s : QueueHeap ι) (others : Heap ι (Element ι))
    (elements : List (ι × Element ι)) : Prop where
  chain : Chain Element.next s.heap s.first elements none
  last : s.last = elements.getLast?.map Prod.fst
  owns : s.heap.Owns others (elements.map Prod.fst)

def values (elements : List (ι × Element ι)) : List Int := elements.map (·.2.value)

theorem Represents.zeroed (others : Heap ι (Element ι)) :
    Represents { heap := others } others [] where
  chain := .nil none
  last := rfl
  owns := .nil others

theorem Represents.first_eq_none {s : QueueHeap ι} (h : s.Represents others elements) :
    s.first = none ↔ values elements = [] := by
  rw [h.chain.first]
  simp [values]

theorem Represents.last_eq_none {s : QueueHeap ι} (h : s.Represents others elements) :
    s.last = none ↔ values elements = [] := by
  rw [h.last]
  simp [values]

variable [DecidableEq ι]

/-- A call that returns. One for which `malloc` has no cell aborts the program
instead. -/
inductive Step : QueueHeap ι → QueueOp × QueueResult → QueueHeap ι → Prop
  | addElement {s t : QueueHeap ι} (cell : ι) (content : Element ι) (value : Int) :
      s.heap cell = none → (s.malloc cell content).addElement cell value = some t →
      Step s (.addElement value, .void) t
  | popElement {s t : QueueHeap ι} {value : Int} :
      s.popElement = some (value, t) → Step s (.popElement, .int value) t
  | isEmpty (s : QueueHeap ι) : Step s (.isEmpty, .bool s.isEmpty) s

/-- The call comes to a cell that is not live. -/
inductive Faults (s : QueueHeap ι) : QueueOp → Prop
  | addElement (cell : ι) (content : Element ι) (value : Int) :
      s.heap cell = none → (s.malloc cell content).addElement cell value = none →
      Faults s (.addElement value)
  | popElement : s.popElement = none → Faults s .popElement

-- ---------------------------------------------------------------------------
-- One call
-- ---------------------------------------------------------------------------

def filled (s : QueueHeap ι) (cell : ι) (value : Int) : Heap ι (Element ι) :=
  Function.update s.heap cell (some { value := value, next := none })

theorem malloc_assigned (s : QueueHeap ι) (cell : ι) (content : Element ι) (value : Int) :
    (((s.malloc cell content).assign cell fun e => { e with value := value }).bind
      (·.assign cell fun e => { e with next := none })) =
      some { s with heap := s.filled cell value } := by
  simp [assign, malloc, Heap.modify?, filled]

theorem addElement_first {s : QueueHeap ι} (hfirst : s.first = none) (hlast : s.last = none)
    (cell : ι) (content : Element ι) (value : Int) :
    (s.malloc cell content).addElement cell value =
      some { heap := s.filled cell value, first := some cell, last := some cell } := by
  have hassigned := s.malloc_assigned cell content value
  unfold addElement
  rw [Option.bind_eq_bind, ← Option.bind_assoc, hassigned]
  simp [hfirst, hlast]

theorem addElement_next {s : QueueHeap ι} {a l : ι} {e : Element ι} (hfirst : s.first = some a)
    (hlast : s.last = some l) (hlive : s.heap l = some e) {cell : ι} (hfresh : s.heap cell = none)
    (content : Element ι) (value : Int) :
    (s.malloc cell content).addElement cell value = some
      { heap := Function.update (s.filled cell value) l (some { e with next := some cell }),
        first := some a, last := some cell } := by
  have hne : l ≠ cell := by
    rintro rfl
    rw [hlive] at hfresh
    cases hfresh
  have hl : s.filled cell value l = some e := (Function.update_of_ne hne _ _).trans hlive
  have hassigned := s.malloc_assigned cell content value
  unfold addElement
  rw [Option.bind_eq_bind, ← Option.bind_assoc, hassigned]
  simp [hfirst, hlast, assign, Heap.modify?_of_live hl]

theorem popElement_empty {s : QueueHeap ι} (hfirst : s.first = none) :
    s.popElement = some (0, s) := by
  unfold popElement
  rw [hfirst]

theorem popElement_first {s : QueueHeap ι} {a : ι} {e : Element ι} (hfirst : s.first = some a)
    (hlive : s.heap a = some e) : s.popElement = some (e.value,
      { heap := Function.update s.heap a none, first := e.next,
        last := if e.next = none then none else s.last }) := by
  unfold popElement
  rw [hfirst]
  simp only [hlive, Heap.free?_of_live hlive, Option.bind_eq_bind, Option.bind_some]
  split
  · rfl
  · rfl

-- ---------------------------------------------------------------------------
-- What each call does to the elements
-- ---------------------------------------------------------------------------

variable {s t : QueueHeap ι} {others : Heap ι (Element ι)} {elements : List (ι × Element ι)}

theorem Represents.addElement (h : s.Represents others elements) (hfresh : s.heap cell = none)
    (content : Element ι) (value : Int) :
    ∃ t elements', (s.malloc cell content).addElement cell value = some t ∧
      t.Represents others elements' ∧ values elements' = values elements ++ [value] := by
  have howns : (s.filled cell value).Owns others _ := h.owns.fill hfresh _
  rcases List.eq_nil_or_concat' elements with rfl | ⟨before, ⟨l, e⟩, rfl⟩
  · have hfirst : s.first = none := h.chain.first
    refine ⟨_, [(cell, { value := value, next := none })], addElement_first hfirst h.last _ _ _,
      ⟨?_, rfl, howns⟩, rfl⟩
    exact .cons (Function.update_self _ _ _) (.nil none)
  · have hlast : s.last = some l := by
      rw [h.last]
      simp
    have hlive : s.heap l = some e := h.chain.live (by simp)
    obtain ⟨a, hfirst⟩ : ∃ a, s.first = some a := by
      refine Option.ne_none_iff_exists'.mp fun hnone => ?_
      have hempty := h.first_eq_none.mp hnone
      simp [values] at hempty
    refine ⟨_,
      before ++ [(l, { e with next := some cell }), (cell, { value := value, next := none })],
      addElement_next hfirst hlast hlive hfresh _ _, ⟨?_, ?_, ?_⟩, ?_⟩
    · exact hfirst ▸ h.chain.concat hfresh rfl rfl
    · simp
    · simpa using howns.write (a := l) (by simp) { e with next := some cell }
    · simp [values]

theorem Represents.popElement {a : ι} {e : Element ι}
    (h : s.Represents others ((a, e) :: elements)) :
    ∃ t, s.popElement = some (e.value, t) ∧ t.heap = Function.update s.heap a none ∧
      t.Represents others elements := by
  have hfirst : s.first = some a := h.chain.first
  have hlive : s.heap a = some e := h.chain.live List.mem_cons_self
  have hchain := (hfirst ▸ h.chain).tail
  refine ⟨_, popElement_first hfirst hlive, rfl, ⟨hchain, ?_, ?_⟩⟩
  · have hnext : e.next = elements.head?.map Prod.fst := hchain.first
    cases elements with
    | nil => exact if_pos hnext
    | cons next rest =>
      rw [if_neg (by simp [hnext]), h.last, List.getLast?_cons_cons]
  · exact h.owns.free (List.nodup_cons.mp h.chain.nodup).1

-- ---------------------------------------------------------------------------
-- Every run
-- ---------------------------------------------------------------------------

theorem Represents.not_faults (h : s.Represents others elements) (op : QueueOp) :
    ¬ s.Faults op := by
  rintro (⟨_, _, _, hfresh, hfault⟩ | hfault)
  · obtain ⟨t, -, hreturns, -⟩ := h.addElement hfresh _ _
    rw [hreturns] at hfault
    cases hfault
  · cases elements with
    | nil =>
      rw [popElement_empty h.chain.first] at hfault
      cases hfault
    | cons element elements =>
      obtain ⟨t, hreturns, -⟩ := h.popElement
      rw [hreturns] at hfault
      cases hfault

/-- A call does to the elements what it does to the list, and returns the same. -/
theorem Step.represents (hstep : s.Step call t) (h : s.Represents others elements) :
    ∃ elements', t.Represents others elements' ∧
      ListStep (values elements) call (values elements') := by
  cases hstep with
  | addElement _ _ _ hfresh hreturns =>
    obtain ⟨t', elements', hreturns', ht', hvalues⟩ := h.addElement hfresh _ _
    cases hreturns.symm.trans hreturns'
    exact ⟨elements', ht', by rw [hvalues]; rfl⟩
  | popElement hreturns =>
    cases elements with
    | nil =>
      cases hreturns.symm.trans (popElement_empty h.chain.first)
      exact ⟨[], h, rfl⟩
    | cons element elements =>
      obtain ⟨t', hreturns', -, ht'⟩ := h.popElement
      cases hreturns.symm.trans hreturns'
      exact ⟨elements, ht', rfl⟩
  | isEmpty =>
    refine ⟨elements, h, ?_⟩
    have hempty : s.isEmpty = PokeStroller.isEmpty (values elements) := by
      unfold QueueHeap.isEmpty PokeStroller.isEmpty
      rw [h.chain.first]
      cases elements with
      | nil => rfl
      | cons => rfl
    rw [hempty]
    rfl

/-- `popElement` frees the first cell of a queue that has one. -/
theorem Step.frees (hstep : s.Step (.popElement, result) t) (h : s.Represents others elements)
    (a : ι) : t.heap a = if s.first = some a then none else s.heap a := by
  cases hstep with
  | popElement hreturns =>
    cases elements with
    | nil =>
      have hfirst : s.first = none := h.chain.first
      cases hreturns.symm.trans (popElement_empty hfirst)
      simp [hfirst]
    | cons element elements =>
      have hfirst : s.first = some element.1 := h.chain.first
      obtain ⟨t', hreturns', hheap, -⟩ := h.popElement
      cases hreturns.symm.trans hreturns'
      rw [hheap, hfirst, Function.update_apply]
      simp [eq_comm]

/-- A zeroed queue after any calls that return. -/
theorem queue_refines (others : Heap ι (Element ι)) {log : List (QueueOp × QueueResult)}
    {s : QueueHeap ι} (h : Runs Step { heap := others } log s) :
    ∃ elements, Runs ListStep [] log (values elements) ∧ s.Represents others elements ∧
      (elements.map Prod.fst).Nodup ∧
      (s.first = none ↔ values elements = []) ∧ (s.last = none ↔ values elements = []) ∧
      (∀ op, ¬ s.Faults op) ∧
      ∀ result t, s.Step (.popElement, result) t →
        result = .int ((values elements).headD 0) ∧
        ∀ a, t.heap a = if s.first = some a then none else s.heap a := by
  have hstep (log : List (QueueOp × QueueResult)) (s : QueueHeap ι) (call : QueueOp × QueueResult)
      (t : QueueHeap ι) (hs : ∃ elements, Runs ListStep [] log (values elements) ∧
        s.Represents others elements) (hcall : s.Step call t) :
      ∃ elements, Runs ListStep [] (log ++ [call]) (values elements) ∧
        t.Represents others elements := by
    obtain ⟨elements, hlist, hs⟩ := hs
    obtain ⟨elements', ht, hlistStep⟩ := hcall.represents hs
    exact ⟨elements', hlist.append (.single hlistStep), ht⟩
  obtain ⟨elements, hlist, hs⟩ := h.trace_invariant hstep ⟨[], .nil _, .zeroed others⟩
  refine ⟨elements, hlist, hs, hs.chain.nodup, hs.first_eq_none, hs.last_eq_none, hs.not_faults,
    fun result t hpop => ⟨?_, hpop.frees hs⟩⟩
  obtain ⟨elements', -, hreturned⟩ := hpop.represents hs
  have hresult := (congrArg Prod.fst hreturned).symm
  cases hvalues : values elements with
  | nil => simpa [hvalues, QueueOp.onList, PokeStroller.popElement] using hresult
  | cons => simpa [hvalues, QueueOp.onList, PokeStroller.popElement] using hresult

/-- Drained, popped once more, and refilled with the cell that was freed. -/
theorem queue_refines_refill : ∃ s : QueueHeap Nat,
    Runs Step { heap := fun _ => none } [(.addElement 4, .void), (.addElement 16, .void),
      (.popElement, .int 4), (.popElement, .int 16), (.isEmpty, .bool true),
      (.popElement, .int 0), (.addElement 4, .void)] s ∧
    s.first = some 0 ∧ ∀ op, ¬ s.Faults op := by
  have hrun := Runs.cons (.addElement 0 ⟨7, some 3⟩ 4 (s := { heap := fun _ : Nat => none }) rfl rfl)
    (.cons (.addElement 1 ⟨0, none⟩ 16 rfl rfl)
    (.cons (.popElement rfl) (.cons (.popElement rfl) (.cons (.isEmpty _) (.cons (.popElement rfl)
    (.single (Step.addElement 0 ⟨7, some 1⟩ 4 rfl rfl)))))))
  obtain ⟨_, -, -, -, -, -, hsafe, -⟩ := queue_refines _ hrun
  exact ⟨_, hrun, rfl, hsafe⟩

end QueueHeap

end PokeStroller
