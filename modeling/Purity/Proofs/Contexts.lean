-- The laws of transparent nodes. A return, a cast, a block or a declaration around an expression is
-- one more node and nothing else, wherever the expression stands. The one exception is the receiver
-- of a call: there a plain read of a local variable is told from any other expression.
import Purity.Proofs.Walk

namespace Purity

/-! ## Places in a tree -/

/-- A node in which one of the expressions directly inside it is left open. -/
inductive Frame
  | set (offset : UInt64) (var : Variable)
  | receiver (offset : UInt64) (callee : Signature) (arguments : List Expr)
  | argument (offset : UInt64) (callee : Signature) (receiver : Option Expr)
      (before after : List Expr)
  | ret (offset : UInt64)
  | cast (offset : UInt64) (type : Option String)
  | statement (offset : UInt64) (before after : List Expr)
  | declare (offset : UInt64) (var : Variable)
  | child (offset : UInt64) (node : String) (before after : List Expr)

namespace Frame

/-- The node with an expression put in. -/
def fill (e : Expr) : Frame → Expr
  | .set o v => .set o v e
  | .receiver o callee arguments => .call o callee (some e) arguments
  | .argument o callee r before after => .call o callee r (before ++ e :: after)
  | .ret o => .ret o e
  | .cast o type => .cast o e type
  | .statement o before after => .block o (before ++ e :: after)
  | .declare o v => .declare o v (some e)
  | .child o node before after => .unhandled o node (before ++ e :: after)

/-- What is walked through before the open place. -/
def before : Frame → List Expr
  | .argument _ _ r before _ => r.toList ++ before
  | .statement _ before _ => before
  | .child _ _ before _ => before
  | _ => []

/-- What is walked through after the open place. -/
def after : Frame → List Expr
  | .receiver _ _ arguments => arguments
  | .argument _ _ _ _ after => after
  | .statement _ _ after => after
  | .child _ _ _ after => after
  | _ => []

/-- Whether the open place is the receiver of a call. -/
def isReceiver : Frame → Bool
  | .receiver _ _ _ => true
  | _ => false

theorem children_fill (f : Frame) (e : Expr) : (f.fill e).children = f.before ++ e :: f.after := by
  cases f <;> simp [fill, before, after, Expr.children]

theorem offset_fill (f : Frame) (e e' : Expr) : (f.fill e).offset = (f.fill e').offset := by
  cases f <;> rfl

/-- With something inside it, a node is not a plain read. -/
theorem receiverIsLocal_fill (f : Frame) (e : Expr) (caller : String) :
    receiverIsLocal (some (f.fill e)) caller = false := by
  cases f <;> rfl

/-- Every expression directly inside another one can be left open. -/
theorem exists_fill {e c : Expr} (h : c ∈ e.children) : ∃ f : Frame, f.fill c = e := by
  cases e with
  | const o v => simp [Expr.children] at h
  | get o v => simp [Expr.children] at h
  | set o v value =>
    obtain rfl := List.mem_singleton.mp h
    exact ⟨.set o v, rfl⟩
  | call o callee receiver arguments =>
    rw [Expr.children, List.mem_append, Option.mem_toList] at h
    rcases h with rfl | h
    · exact ⟨.receiver o callee arguments, rfl⟩
    · obtain ⟨before, after, rfl⟩ := List.append_of_mem h
      exact ⟨.argument o callee receiver before after, rfl⟩
  | ret o value =>
    obtain rfl := List.mem_singleton.mp h
    exact ⟨.ret o, rfl⟩
  | cast o operand type =>
    obtain rfl := List.mem_singleton.mp h
    exact ⟨.cast o type, rfl⟩
  | block o statements =>
    obtain ⟨before, after, rfl⟩ := List.append_of_mem h
    exact ⟨.statement o before after, rfl⟩
  | declare o v initial =>
    rw [Expr.children, Option.mem_toList] at h
    obtain rfl := h
    exact ⟨.declare o v, rfl⟩
  | unhandled o node inside =>
    obtain ⟨before, after, rfl⟩ := List.append_of_mem h
    exact ⟨.child o node before after, rfl⟩

end Frame

/-- A tree with one place left open: the nodes around that place, from the inside out. -/
abbrev Context := List Frame

namespace Context

/-- The tree with an expression put in. -/
def plug (e : Expr) : Context → Expr
  | [] => e
  | f :: fs => plug (f.fill e) fs

/-- Whether the open place is directly the receiver of a call. -/
def atReceiver : Context → Bool
  | [] => false
  | f :: _ => f.isReceiver

/-- Every node of a tree is at some place in it, also when the tree is part of another. -/
theorem exists_plug {body node : Expr} (h : node ∈ body.preorder) (outer : Context) :
    ∃ k : Context, k.plug node = outer.plug body := by
  induction body using Expr.childrenInduction generalizing outer with
  | step e ih =>
    rw [Expr.preorder_eq, List.mem_cons, List.mem_flatMap] at h
    rcases h with rfl | ⟨c, hc, h⟩
    · exact ⟨outer, rfl⟩
    · obtain ⟨f, rfl⟩ := Frame.exists_fill hc
      exact ih c hc h (f :: outer)

end Context

/-! ## One node more -/

namespace Walk

/-- Counting a node early or late makes no difference. -/
theorem record_count (w : Walk) (v : Violation) (o : UInt64) :
    w.count.record v o = (w.record v o).count := by
  simp [record_eq, count, limitTo]

end Walk

namespace Table

variable {t : Table} {caller : String}

theorem enter_count (t : Table) (caller : String) (w : Walk) (e : Expr) :
    t.enter caller w.count e = (t.enter caller w e).count := by
  unfold enter
  split
  · rfl
  · rw [Walk.record_count]

theorem foldl_walk_count {es : List Expr} (w : Walk)
    (h : ∀ e ∈ es, ∀ w, t.walk caller w.count e = (t.walk caller w e).count) :
    es.foldl (t.walk caller) w.count = (es.foldl (t.walk caller) w).count := by
  induction es generalizing w with
  | nil => rfl
  | cons e es ih =>
    rw [List.foldl_cons, List.foldl_cons, h e List.mem_cons_self]
    exact ih _ fun e' he' => h e' (List.mem_cons_of_mem e he')

/-- A node counted before a walk is still there after it, and the walk does not see it. -/
theorem walk_count (t : Table) (caller : String) (w : Walk) (e : Expr) :
    t.walk caller w.count e = (t.walk caller w e).count := by
  induction e using Expr.childrenInduction generalizing w with
  | step e ih =>
    rw [walk_eq, walk_eq, enter_count]
    exact foldl_walk_count _ fun c hc w => ih c hc w

/-- Walking through the second expression is walking through the first and counting one node more,
whatever was seen before. -/
def AddsNode (t : Table) (caller : String) (e e' : Expr) : Prop :=
  ∀ w, t.walk caller w e' = (t.walk caller w e).count

/-- A node is by itself what it was, whatever is put in, unless a receiver is put in. -/
theorem construct?_fill {f : Frame} {e e' : Expr}
    (h : f.isReceiver = true →
      receiverIsLocal (some e) caller = receiverIsLocal (some e') caller) :
    t.construct? caller (f.fill e) = t.construct? caller (f.fill e') := by
  cases f with
  | receiver o callee arguments => simp [Frame.fill, construct?, effectiveLevel, h rfl]
  | _ => rfl

/-- One node more inside a node is one node more in all: what was seen before the place is carried
through it and through all that follows. -/
theorem addsNode_fill {f : Frame} {e e' : Expr} (h : t.AddsNode caller e e')
    (hr : f.isReceiver = true →
      receiverIsLocal (some e) caller = receiverIsLocal (some e') caller) :
    t.AddsNode caller (f.fill e) (f.fill e') := by
  intro w
  have henter : t.enter caller w (f.fill e') = t.enter caller w (f.fill e) := by
    rw [enter, enter, construct?_fill hr, Frame.offset_fill f e' e]
  rw [walk_eq, walk_eq, henter, Frame.children_fill, Frame.children_fill, List.foldl_append,
    List.foldl_append, List.foldl_cons, List.foldl_cons, h]
  exact foldl_walk_count _ fun c _ w => t.walk_count caller w c

theorem addsNode_plug {e e' : Expr} (k : Context) (h : t.AddsNode caller e e')
    (hr : k.atReceiver = true →
      receiverIsLocal (some e) caller = receiverIsLocal (some e') caller) :
    t.AddsNode caller (k.plug e) (k.plug e') := by
  induction k generalizing e e' with
  | nil => exact h
  | cons f k ih =>
    -- From the second node on, what is put in has something inside it and is no plain read.
    refine ih (addsNode_fill h hr) fun _ => ?_
    rw [Frame.receiverIsLocal_fill, Frame.receiverIsLocal_fill]

theorem classify_of_addsNode {decl : Decl} {e e' : Expr} (h : t.AddsNode decl.id e e')
    (l : Level) :
    t.classify { decl with body := some e' } l =
      { t.classify { decl with body := some e } l with
        visited := (t.classify { decl with body := some e } l).visited + 1 } := by
  unfold classify
  simp only [h (.start l)]
  rfl

end Table

/-! ## Transparent nodes -/

/-- The second expression is the first one, returned, cast, alone in a block, or as the initial value
of a variable. -/
inductive Expr.Wraps (e : Expr) : Expr → Prop
  | ret (o : UInt64) : Wraps e (.ret o e)
  | cast (o : UInt64) (type : Option String) : Wraps e (.cast o e type)
  | block (o : UInt64) : Wraps e (.block o [e])
  | declare (o : UInt64) (v : Variable) : Wraps e (.declare o v (some e))

namespace Table

variable {t : Table} {caller : String}

theorem addsNode_of_wraps {e e' : Expr} (h : e.Wraps e') : t.AddsNode caller e e' := by
  intro w
  -- Each of the four is counted, and then the walk goes on to `e`.
  rw [← walk_count]
  cases h with
  | ret o => rfl
  | cast o type => rfl
  | block o => rfl
  | declare o v => rfl

theorem addsNode_splice (o o' : UInt64) (before inner after : List Expr) :
    t.AddsNode caller (.block o (before ++ inner ++ after))
      (.block o (before ++ .block o' inner :: after)) := by
  intro w
  have hcount : ∀ (es : List Expr) (w : Walk),
      es.foldl (t.walk caller) w.count = (es.foldl (t.walk caller) w).count := fun es w =>
    foldl_walk_count w fun e _ w => t.walk_count caller w e
  simp only [walk, walkList_eq, List.foldl_append, List.foldl_cons, hcount]

end Table

/-! ## The law -/

/-- Every node of a body is at some place in it. At every place but directly as the receiver of a
call, a return, a cast, a block or a declaration around an expression adds one to the nodes, and the
level and the findings are the same. At every place, to take the statements of a block that is itself
a statement into the block around it takes one node away, and nothing else changes. -/
theorem transparent_nodes_are_only_counted (t : Table) (decl : Decl) (declared : Level) :
    let classify (body : Expr) := t.classify { decl with body := some body } declared
    (∀ body node, node ∈ body.preorder → ∃ k : Context, k.plug node = body) ∧
      (∀ (k : Context) e e', k.atReceiver = false → e.Wraps e' →
        (classify (k.plug e')).inferred = (classify (k.plug e)).inferred ∧
          (classify (k.plug e')).findings = (classify (k.plug e)).findings ∧
          (classify (k.plug e')).visited = (classify (k.plug e)).visited + 1) ∧
      (∀ (k : Context) o o' before inner after,
        let nested := k.plug (.block o (before ++ .block o' inner :: after))
        let spliced := k.plug (.block o (before ++ inner ++ after))
        (classify spliced).inferred = (classify nested).inferred ∧
          (classify spliced).findings = (classify nested).findings ∧
          (classify spliced).visited + 1 = (classify nested).visited) := by
  intro classify
  refine ⟨fun body node h => Context.exists_plug h [], ?_, ?_⟩
  · intro k e e' hk hwraps
    have hadds : t.AddsNode decl.id (k.plug e) (k.plug e') :=
      Table.addsNode_plug k (Table.addsNode_of_wraps hwraps) (by simp [hk])
    have hc : classify (k.plug e') = _ := Table.classify_of_addsNode hadds declared
    rw [hc]
    exact ⟨rfl, rfl, rfl⟩
  · intro k o o' before inner after nested spliced
    have hadds : t.AddsNode decl.id spliced nested :=
      Table.addsNode_plug k (Table.addsNode_splice o o' before inner after) fun _ => rfl
    have hc : classify nested = _ := Table.classify_of_addsNode hadds declared
    rw [hc]
    exact ⟨rfl, rfl, rfl⟩

/-- A call that appends to the builder that `receiver` gives. -/
def appendTo (receiver : Expr) (arguments : List Expr) : Expr :=
  .call 0 ⟨"append", some ⟨"kotlin.text.StringBuilder", .regular⟩, []⟩ (some receiver) arguments

/-- A read of a local builder of the function `m.f`. -/
def localRead : Expr := .get 1 (.ofLocal "b" "m.f" false)

-- The receiver of a call is left out for a reason: a return around it takes the exemption away.
example :
    let findings (body : Expr) :=
      (Table.default.classify { mixed with body := some body } .pure).findings
    findings (appendTo localRead []) = [] ∧
      findings (appendTo (.ret 2 localRead) []) = [⟨.callsWeaker "append" .none, 0⟩] := by
  decide

theorem a_cast_of_an_argument_is_only_counted :
    let k : Context := [.argument 0 (.ofName "println") (some (appendTo localRead [])) [] []]
    let e := Expr.get 4 ⟨"total", "m", true, false⟩
    let e' := Expr.cast 5 e (some "kotlin.Any")
    let classify (body : Expr) := Table.default.classify { mixed with body := some body } .pure
    k.atReceiver = false ∧ e.Wraps e' ∧
      (classify (k.plug e)).findings =
        [⟨.callsWeaker "println" .none, 0⟩, ⟨.readsVariable "total", 4⟩] ∧
      (classify (k.plug e')).findings = (classify (k.plug e)).findings := by
  intro k e e' classify
  have hwraps : e.Wraps e' := .cast 5 (some "kotlin.Any")
  have hlaw := (transparent_nodes_are_only_counted .default mixed .pure).2.1 k e e' rfl hwraps
  exact ⟨rfl, hwraps, by decide, hlaw.2.1⟩

end Purity
