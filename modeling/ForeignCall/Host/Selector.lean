/-! # Selectors

A selector is the interned name of a method. Names are strings that end at the first NUL, so two
texts that agree up to there name one selector. The family of a name tells whether a method hands
its result over to the caller.
-/

namespace ForeignCall

/-- An interned method name. -/
structure Selector where
  name : String
  deriving DecidableEq, Repr

namespace Selector

def ofText (text : String) : Selector := ⟨String.ofList (text.toList.takeWhile (· ≠ '\x00'))⟩

/-- The number of arguments that the name implies: one for each colon. -/
def arity (selector : Selector) : Nat := selector.name.toList.count ':'

end Selector

/-- Whether a reference that a call returns belongs to the caller already. -/
inductive ReturnOwnership where
  /-- The callee handed a reference over. -/
  | retained
  /-- The callee kept the reference it holds. -/
  | unretained
  deriving DecidableEq, Repr

namespace ReturnOwnership

/-- The families of methods that hand their result over. -/
def retainedFamilies : List String := ["alloc", "new", "copy", "mutableCopy", "init"]

/-- Whether a name belongs to a family: it starts with the family's word, and the word does not run
on into a lower-case letter. -/
def belongsTo (name family : List Char) : Bool :=
  family.isPrefixOf name && !(name.drop family.length).head?.any Char.isLower

/-- The convention that a method name implies; underscores before it do not count. -/
def ofName (name : String) : ReturnOwnership :=
  let word := name.toList.dropWhile (· = '_')
  if retainedFamilies.any fun family => belongsTo word family.toList then retained else unretained

def ofSelector (selector : Selector) : ReturnOwnership := ofName selector.name

def name : ReturnOwnership → String
  | retained => "Retained"
  | unretained => "Unretained"

end ReturnOwnership

end ForeignCall
