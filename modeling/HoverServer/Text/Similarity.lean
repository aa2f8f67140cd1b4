/-! How alike two words are, for guessing at a misspelt one. -/
namespace HoverServer.Text.Similarity

/-- A letter of one word is matched with the first free equal letter of the other that lies in
its window. The result marks the letters taken so far. -/
def pick (c : Char) (low high : Nat) (place : Nat) :
    List (Char × Bool) → Option (List (Char × Bool))
  | [] => none
  | (d, taken) :: r =>
    if high ≤ place then none
    else if low ≤ place && c = d && !taken then some ((d, true) :: r)
    else (pick c low high (place + 1) r).map ((d, taken) :: ·)

/-- The matched letters of both words, each in its own order. -/
def matching (range place : Nat) (other : List (Char × Bool)) : List Char → List Char × List Char
  | [] => ([], (other.filter (·.2)).map (·.1))
  | c :: r =>
    match pick c (place - range) (place + range + 1) 0 other with
    | none => matching range (place + 1) other r
    | some other =>
      let rest := matching range (place + 1) other r
      (c :: rest.1, rest.2)

/-- Jaro's measure: the shares of the letters that are matched in either word, and the share of
those that stand in the same order. -/
def jaro (a b : List Char) : Float :=
  if a = [] && b = [] then 1
  else
    let range := max a.length b.length / 2 - 1
    let (left, right) := matching range 0 (b.map (·, false)) a
    let hits := left.length
    let swaps := (left.zip right).countP (fun (c, d) => c != d) / 2
    if hits = 0 then 0
    else
      (hits.toFloat / a.length.toFloat + hits.toFloat / b.length.toFloat +
        (hits - swaps).toFloat / hits.toFloat) / 3

/-- The candidate most like a word, the last of several. Below a measure of 0.7 none is alike. -/
def nearest {α : Type} (name : α → String) (word : String) (candidates : List α) : Option α :=
  let keep (best : Option (Float × α)) (a : α) : Option (Float × α) :=
    let x := jaro word.toList (name a).toList
    if x > 0.7 && (best.map fun (y, _) => decide (y ≤ x)).getD true then some (x, a) else best
  (candidates.foldl keep none).map (·.2)

end HoverServer.Text.Similarity
