import TransitionSystems.Proofs.Product.AsynchronousLaws
import TransitionSystems.Proofs.Product.Numbering

/-!
# Exhausted explorations

The loop of an exploration takes pairs from the front of the queue until none is left, and pairs
join the queue at its end. A run of the loop has no fuel, so that every run ends with an empty
queue. It takes the pairs that have joined the queue in the order in which they have joined it, and
no pair joins the queue twice. The counts that are kept on the way are those of the states and
transitions of the product.
-/

namespace TransitionSystems

namespace Exploration

/-! ## Runs of the loop -/

/-- The loop runs from an exploration to another one. On the way some pairs join the queue and some
pairs are taken from it. -/
inductive Drains (rules : Rules) :
    Exploration → List Discovery → List Discovery → Exploration → Prop
  | done {exploration : Exploration} (empty : exploration.found[exploration.next]? = none) :
      Drains rules exploration [] [] exploration
  | expand {exploration middle after : Exploration} {discovery : Discovery}
      {joining joined taken : List Discovery}
      (next : exploration.found[exploration.next]? = some discovery)
      (expanded : exploration.expand rules discovery = .ok middle)
      (joins : middle.found.toList = exploration.found.toList ++ joining)
      (drains : Drains rules middle joined taken after) :
      Drains rules exploration (joining ++ joined) (discovery :: taken) after

variable {rules : Rules} {base : System} {count : Nat} {exploration after : Exploration}

theorem drop_next_eq_nil (empty : exploration.found[exploration.next]? = none) :
    exploration.found.toList.drop exploration.next = [] := by
  rw [Array.getElem?_eq_none_iff, ← Array.length_toList] at empty
  exact List.drop_eq_nil_of_le empty

/-- Draining with fuel is a run of the loop when it leaves the queue empty. The pairs that are taken
are those from the next one on. -/
theorem Underway.exists_drains (underway : Underway rules base count exploration)
    (admissible : rules.Admissible base.schema) {fuel : Nat}
    (drained : exploration.drain rules fuel = .ok after)
    (empty : after.found[after.next]? = none) :
    ∃ joined taken, Drains rules exploration joined taken after ∧
      after.found.toList = exploration.found.toList ++ joined ∧
      taken = after.found.toList.drop exploration.next := by
  -- The fuel only bounds the number of pairs that are taken: `drain` stops early when the queue is
  -- empty, and that it is empty when the fuel has run out is given.
  induction fuel generalizing exploration count with
  | zero =>
      obtain rfl := Except.ok.inj drained
      exact ⟨[], [], .done empty, by simp, (drop_next_eq_nil empty).symm⟩
  | succ fuel induction =>
      rw [Exploration.drain] at drained
      cases next : exploration.found[exploration.next]? with
      | none =>
          rw [next] at drained
          obtain rfl := Except.ok.inj drained
          exact ⟨[], [], .done next, by simp, (drop_next_eq_nil next).symm⟩
      | some discovery =>
          rw [next] at drained
          obtain ⟨middle, expanded, underway', joining, joins⟩ :=
            underway.expand admissible (underway.account.next ▸ next)
          obtain ⟨_, same, rest⟩ := bind_eq_ok_iff.1 drained
          obtain rfl := Except.ok.inj (same.symm.trans expanded)
          obtain ⟨joined, taken, drains, grown, rfl⟩ := induction underway' rest
          rw [← joins, List.append_assoc] at grown
          refine ⟨joining ++ joined, _, .expand next expanded joins.symm drains, grown, ?_⟩
          have first : after.found.toList[exploration.next]? = some discovery := by
            obtain ⟨within, -⟩ := Array.getElem?_eq_some_iff.1 next
            rwa [grown, List.getElem?_append_left (by rwa [Array.length_toList]),
              Array.getElem?_toList]
          obtain ⟨below, rfl⟩ := List.getElem?_eq_some_iff.1 first
          rw [underway'.account.next, ← underway.account.next, ← List.drop_eq_getElem_cons]

end Exploration

/-! ## Accounts of products -/

/-- A product that has been explored on a system without states until the queue was empty, with the
pairs in the order in which they were taken from the queue. -/
structure Product.IsExhausted (product : Product) (rules : Rules) (base : System)
    (taken : List Discovery) : Prop where
  /-- What is taken from the queue is what has joined it, in the same order. -/
  run : ∃ started joined after, Exploration.start rules base = .ok started ∧
    started.Drains rules joined taken after ∧ taken = started.found.toList ++ joined ∧
    product = { system := after.system, stats := after.stats }
  /-- No pair is taken twice. -/
  nodup : (taken.map Discovery.pair).Nodup
  mem_iff : ∀ pair, pair ∈ taken.map Discovery.pair ↔ rules.Reaches pair
  states : product.system.states.toList = taken.map Discovery.state
  created : product.stats.created = product.system.states.size
  expanded : product.stats.expanded = product.system.states.size
  /-- A transition that several moves request is stored and counted once. -/
  stored_once : product.system.transitions.toList.Nodup
  transitions : product.stats.transitions = product.system.transitions.size

namespace Exploration

/-- Exploring admissible rules exhausts them. -/
theorem explore_isExhausted {rules : Rules} {schema : Schema} {name : Text} {isMutable : Bool}
    {after : Exploration} (admissible : rules.Admissible schema)
    (explored : rules.explore (.empty schema name isMutable) = .ok after) :
    Product.IsExhausted { system := after.system, stats := after.stats } rules
      (.empty schema name isMutable) after.found.toList := by
  obtain ⟨started, begun, underway⟩ := exists_start admissible name isMutable
  obtain ⟨last, drained, complete, -⟩ := underway.drain admissible rules.bound (by omega)
  have explored' : rules.explore (.empty schema name isMutable) = .ok last := by
    rw [explore_eq_start_bind_drain, bind_eq_ok_iff]
    exact ⟨started, begun, drained⟩
  obtain rfl := Except.ok.inj (explored.symm.trans explored')
  have account := complete.account
  have empty : after.found[after.next]? = none := by rw [account.next]; simp
  have sizes : after.system.states.size = after.found.size := by
    simpa using congrArg List.length account.states
  obtain ⟨joined, taken, drains, grown, all⟩ := underway.exists_drains admissible drained empty
  rw [underway.account.next, List.drop_zero] at all
  exact {
    run := ⟨started, joined, after, begun, all ▸ drains, grown, rfl⟩
    nodup := complete.isQueue.nodup
    mem_iff := by
      intro pair
      rw [← complete.exists_mem_found_iff]
      simp
    states := account.states
    created := account.created.trans sizes.symm
    expanded := account.expanded.trans sizes.symm
    stored_once := account.coherent.nodup_transitions
    transitions := account.counted }

end Exploration

namespace System

variable {left right : System}

theorem MovesWithin.exists_isExhausted {combine : OrderedSet → OrderedSet → OrderedSet}
    {moves : System → System → Symbol → Symbol → List Move}
    (within : MovesWithin combine moves left right) (coherent : left.Coherent)
    (coherent' : right.Coherent) (kinds : left.kind = right.kind) (operation sign : Text) :
    ∃ schema product taken, productWith operation sign combine moves left right = .ok product ∧
      product.IsExhausted (productRules moves left right)
        (.empty schema (left.name ++ sign ++ right.name) (left.isMutable || right.isMutable))
        taken := by
  obtain ⟨schema, _, after, built, admissible, explored, -⟩ :=
    within.exists_productWith coherent coherent' kinds operation sign
  exact ⟨schema, _, _, built, Exploration.explore_isExhausted admissible explored⟩

/-- The explorations of both products of reachable systems end, take every pair that joins the queue
once, and count the states and transitions that they have built. -/
theorem Reachable.products_isExhausted (reachable : left.Reachable) (reachable' : right.Reachable)
    (kinds : left.kind = right.kind) :
    (∃ schema product taken, left.synchronousProduct right = .ok product ∧
        product.IsExhausted (productRules synchronousMoves left right)
          (.empty schema (left.name ++ "*" ++ right.name) (left.isMutable || right.isMutable))
          taken) ∧
      ∃ schema product taken, left.asynchronousProduct right = .ok product ∧
        product.IsExhausted (productRules asynchronousMoves left right)
          (.empty schema (left.name ++ "|" ++ right.name) (left.isMutable || right.isMutable))
          taken := by
  have coherent := reachable.coherent
  have coherent' := reachable'.coherent
  exact ⟨(movesWithin_synchronous coherent coherent' kinds).exists_isExhausted coherent coherent'
      kinds _ _,
    (movesWithin_asynchronous coherent coherent' kinds).exists_isExhausted coherent coherent'
      kinds _ _⟩

/-- A clock with a lamp, of which every state has a pair. -/
theorem products_isExhausted_clock_lamp :
    (∃ schema product taken, clock.synchronousProduct lamp = .ok product ∧
        product.IsExhausted (productRules synchronousMoves clock lamp)
          (.empty schema (clock.name ++ "*" ++ lamp.name) (clock.isMutable || lamp.isMutable))
          taken) ∧
      ∃ schema product taken, clock.asynchronousProduct lamp = .ok product ∧
        product.IsExhausted (productRules asynchronousMoves clock lamp)
          (.empty schema (clock.name ++ "|" ++ lamp.name) (clock.isMutable || lamp.isMutable))
          taken :=
  reachable_clock.products_isExhausted reachable_lamp (by decide +kernel)

/-- In each of the three states the clock can tick, which no move of the lamp coincides with. -/
example : (clock.asynchronousProduct lamp).toOption.map (·.stats) = some ⟨3, 3, 6⟩ := by
  decide +kernel

/-- Either of two clocks can tick, which makes two moves and one transition. -/
example : (clock.asynchronousProduct clock).toOption.map (·.stats) = some ⟨1, 1, 1⟩ := by
  decide +kernel

end System

end TransitionSystems
