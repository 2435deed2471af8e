import Reckoner.Decimal.Numeral
import Reckoner.Expr.Basic

/-!
# The grammar of expressions

`Derives tier ts e` says that the tokens `ts`, all of them, are a sentence of a tier of the grammar
and that `e` is a tree of that sentence. The grammar is ambiguous: the operator after `- 1` in
`- 1 + 2` may stand inside the negation or outside of it. Nothing here says which tree is chosen,
or how a sentence is found.
-/

namespace Reckoner

/-- The tiers of the grammar, from the one that binds least. -/
inductive Tier where
  | additive
  | multiplicative
  | power
  | leaf
deriving DecidableEq

/-- The derivations of the grammar. In each of the upper three tiers, a sentence is one of the tier
below, or two sentences with one operator of the tier between them. -/
inductive Derives : Tier → List Token → Expr → Prop where
  | additive {ls rs : List Token} {l r : Expr} {t : Token} {op : Operator}
      (left : Derives .multiplicative ls l) (operator : Operator.additive? t.kind = some op)
      (right : Derives .multiplicative rs r) :
      Derives .additive (ls ++ t :: rs) (.binary l op r)
  | ofMultiplicative {ts : List Token} {e : Expr} (h : Derives .multiplicative ts e) :
      Derives .additive ts e
  | multiplicative {ls rs : List Token} {l r : Expr} {t : Token} {op : Operator}
      (left : Derives .power ls l) (operator : Operator.multiplicative? t.kind = some op)
      (right : Derives .power rs r) :
      Derives .multiplicative (ls ++ t :: rs) (.binary l op r)
  | ofPower {ts : List Token} {e : Expr} (h : Derives .power ts e) : Derives .multiplicative ts e
  | power {ls rs : List Token} {l r : Expr} {t : Token} {op : Operator}
      (left : Derives .leaf ls l) (operator : Operator.power? t.kind = some op)
      (right : Derives .power rs r) :
      Derives .power (ls ++ t :: rs) (.binary l op r)
  | ofLeaf {ts : List Token} {e : Expr} (h : Derives .leaf ts e) : Derives .power ts e
  | number {t : Token} {value : Binary64} (kind : t.kind = .number)
      (text : Numeral.read? t.text = some value) :
      Derives .leaf [t] (.num value)
  | neg {t : Token} {ts : List Token} {e : Expr} (kind : t.kind = .minus)
      (inner : Derives .additive ts e) :
      Derives .leaf (t :: ts) (.neg e)
  | group {t u : Token} {ts : List Token} {e : Expr} (opening : t.kind = .leftParen)
      (inner : Derives .additive ts e) (closing : u.kind = .rightParen) :
      Derives .leaf (t :: (ts ++ [u])) (.group e)

/-- The tokens are an expression. -/
def IsExpression (ts : List Token) : Prop := ∃ e, Derives .additive ts e

end Reckoner
