/-!
# Polynomials

Sums of products of atoms with coefficients modulo a power of two. The normal form of a sum does not
depend on the order in which it was put together, so that two words with one normal form are equal.
-/

namespace BlockEquiv

/-- A product of atoms, given by their numbers in ascending order. -/
abbrev Monomial := List Nat

/-- A sum of products with coefficients, the products in ascending order and no coefficient zero. -/
abbrev Polynomial := List (Monomial × Nat)

namespace Polynomial

/-- The constant. -/
def const (modulus n : Nat) : Polynomial := if n % modulus = 0 then [] else [([], n % modulus)]

/-- An atom. -/
def atom (n : Nat) : Polynomial := [([n], 1)]

/-- Adds a product to a sum. -/
def addTerm (modulus : Nat) (m : Monomial) (c : Nat) : Polynomial → Polynomial
  | [] => if c % modulus = 0 then [] else [(m, c % modulus)]
  | (n, d) :: rest =>
    if m = n then
      let e := (c + d) % modulus
      if e = 0 then rest else (n, e) :: rest
    else if m < n then
      if c % modulus = 0 then (n, d) :: rest else (m, c % modulus) :: (n, d) :: rest
    else (n, d) :: addTerm modulus m c rest

/-- Sum. -/
def add (modulus : Nat) (p q : Polynomial) : Polynomial :=
  p.foldl (fun r (m, c) => addTerm modulus m c r) q

/-- Multiple. -/
def scale (modulus k : Nat) (p : Polynomial) : Polynomial :=
  p.foldl (fun r (m, c) => addTerm modulus m (k * c) r) []

/-- Negative. -/
def neg (modulus : Nat) (p : Polynomial) : Polynomial := scale modulus (modulus - 1) p

/-- Product of two products of atoms. -/
def mulMonomial (m n : Monomial) : Monomial := List.mergeSort (m ++ n)

/-- Product. -/
def mul (modulus : Nat) (p q : Polynomial) : Polynomial :=
  p.foldl (fun r (m, c) =>
    q.foldl (fun r (n, d) => addTerm modulus (mulMonomial m n) (c * d) r) r) []

/-- The number of products that a sum may have; greater ones are taken as atoms. -/
def mostTerms : Nat := 24

/-- The number of products that a product of sums may have. -/
def mostProducts : Nat := 8

end Polynomial

end BlockEquiv
