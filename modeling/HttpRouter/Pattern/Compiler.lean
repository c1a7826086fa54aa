import HttpRouter.Regex.Expression

set_option autoImplicit false

/-!
# Compilers of expressions

Every expression of a route goes through the compiler of its router.  A compiler may be supplied
from outside and may remember what another one compiled.  What has been remembered and the runs of
supplied compilers are kept in a `Workshop`, which all copies of a compiler share.
-/
namespace HttpRouter

inductive Compiler where
  | standard
  | supplied (compile : Text → Option Expression)
  /-- Remembers the results of `inner` in the cache of this number. -/
  | caching (cache : Nat) (inner : Compiler)

structure Cached where
  cache : Nat
  source : Text
  result : Expression
deriving DecidableEq, Repr

/-- The remembered expressions, the texts given to supplied compilers, latest first, and the number
of caches and routers that were made so far. -/
structure Workshop where
  cached : List Cached
  runs : List Text
  made : Nat
deriving DecidableEq, Repr

abbrev Build := StateM Workshop

namespace Workshop

def initial : Workshop := ⟨[], [], 0⟩

def find? (w : Workshop) (cache : Nat) (source : Text) : Option Expression :=
  (w.cached.find? fun entry => entry.cache == cache && entry.source == source).map (·.result)

def remember (w : Workshop) (cache : Nat) (source : Text) (result : Expression) : Workshop :=
  { w with cached := ⟨cache, source, result⟩ :: w.cached }

def record (w : Workshop) (source : Text) : Workshop := { w with runs := source :: w.runs }

def fresh : Build Nat := fun w => (w.made, { w with made := w.made + 1 })

end Workshop

namespace Compiler

/-- Only successful results are remembered. -/
def compile : Compiler → Text → Build (Option Expression)
  | standard, source, w => (Expression.parse? source, w)
  | supplied f, source, w => (f source, w.record source)
  | caching cache inner, source, w =>
    match w.find? cache source with
    | some result => (some result, w)
    | none =>
      match inner.compile source w with
      | (some result, w) => (some result, w.remember cache source result)
      | (none, w) => (none, w)

def cachingWith (inner : Compiler) : Build Compiler := do
  pure (caching (← Workshop.fresh) inner)

def describe (_ : Compiler) : Text := "RegexCompiler \x7b .. \x7d".toList

end Compiler
end HttpRouter
