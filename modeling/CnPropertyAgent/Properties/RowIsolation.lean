import CnPropertyAgent.Providers.Lianjia.ListingParser
import CnPropertyAgent.Providers.Lianjia.TransactionParser

/-!
Whether a row can cost its siblings their parse.

Every value of a row is read under a `try`, and so is the model built of it, but only for the
errors that the parsers expect. A cell that is nested too deep to be printed raises out of the
batch, and so does the id of a listing with an unpaired surrogate, which the digest encodes
outside of any `try`.
-/

namespace CnPropertyAgent.Lianjia

open Python Relational

/-- The batch is parsed, every row is counted, and what became of row `i` is what
parsing it alone under that index makes of it, in order. -/
def Isolated {α : Type} (parseRow : Json → Option Nat → Except Failure (α ⊕ ParseRejection))
    (rows : List Json) (parsed : Except Failure (ParseResult α)) : Prop :=
  ∃ (result : ParseResult α) (outcomes : List (α ⊕ ParseRejection)), parsed = .ok result ∧
    result.parsedCount + result.rejectedCount = rows.length ∧
    (rows.mapIdx fun i row => parseRow row (some i)) = outcomes.map .ok ∧
    result.records = outcomes.filterMap Sum.getLeft? ∧
    result.rejections = outcomes.filterMap Sum.getRight?

section

variable {α : Type} {parseRow : Json → Option Nat → Except Failure (α ⊕ ParseRejection)}
  {rows : List Json}

/-- A batch is isolated as soon as it is parsed. -/
theorem isolated_iff_returns :
    Isolated parseRow rows (parseRows parseRow rows) ↔ ∃ result, parseRows parseRow rows = .ok result := by
  constructor
  · rintro ⟨result, -, parsed, -⟩
    exact ⟨result, parsed⟩
  · rintro ⟨result, parsed⟩
    obtain ⟨outcomes, each, rfl⟩ := parseRows_eq_ok_iff.mp parsed
    have counted : outcomes.length = rows.length := by
      simpa using (congrArg List.length each).symm
    refine ⟨_, outcomes, parsed, ?_, each, ?_⟩
    · rw [buildParseResult_count, counted]
    · rw [buildParseResult_eq]
      exact ⟨rfl, rfl⟩

/-- When a row alone is parsed exactly if it `Returns`, a batch is isolated exactly if
all its rows do. -/
theorem isolated_iff_forall {Returns : Json → Prop}
    (alone : ∀ row rowIndex, (∃ outcome, parseRow row rowIndex = .ok outcome) ↔ Returns row) :
    Isolated parseRow rows (parseRows parseRow rows) ↔ ∀ row ∈ rows, Returns row := by
  simp only [isolated_iff_returns, parseRows_returns_iff, alone, List.mem_iff_getElem?]
  exact ⟨fun h row ⟨i, found⟩ => h i row found, fun h i row found => h row ⟨i, found⟩⟩

end

/-- A listing with its price, whose provider id is an unpaired surrogate. -/
def surrogateRow : Json := .object [(str "房源编号", .text [0xD800]), (str "总价", .text (str "300万"))]

def sampleListingContext : LianjiaListingParseContext where
  toBatchContext := .silent
  communityId := str "cm-a"
  snapshotAt := sampleCollectedAt
  validCommunity := by decide +kernel

/-- A surrogate in the id of a listing takes its whole batch down. -/
theorem surrogate_raises_out_of_batch :
    ¬ ∀ (_ : Runtime) (listing : LianjiaListingParseContext) (transaction : LianjiaParseContext)
      (rows : List Json),
      Isolated (parseListingRow listing) rows (parseListingRows listing rows) ∧
        Isolated (parseTransactionRow transaction) rows (parseTransactionRows transaction rows) := by
  intro isolated
  obtain ⟨⟨result, -, returned, -⟩, -⟩ :=
    isolated sampleRuntime sampleListingContext sampleContext [surrogateRow]
  have raised : (@parseListingRows sampleRuntime sampleListingContext [surrogateRow]).isOk = false := by
    decide +kernel
  rw [returned] at raised
  cases raised

/-- **When rows are isolated.** A batch of any JSON values is parsed row by row exactly when no row
that is a mapping reaches, in the order of reading, a cell that is nested too deep and, for
listings, none that is read to the end has a price and an id with an unpaired surrogate. -/
theorem rows_isolated_iff [Runtime] (listing : LianjiaListingParseContext)
    (transaction : LianjiaParseContext) (rows : List Json) :
    (Isolated (parseListingRow listing) rows (parseListingRows listing rows) ↔
      ∀ row ∈ rows, ListingParser.Returns row) ∧
    (Isolated (parseTransactionRow transaction) rows (parseTransactionRows transaction rows) ↔
      ∀ row ∈ rows, TransactionParser.Returns row) :=
  ⟨isolated_iff_forall (parseListingRow_returns_iff listing),
    isolated_iff_forall (parseTransactionRow_returns_iff transaction)⟩

end CnPropertyAgent.Lianjia
