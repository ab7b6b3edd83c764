import CnPropertyAgent.Services.MarketObservationQuery
import CnPropertyAgent.Services.MarketRuns

/-!
The market series read is a last-write-wins log of what the calls wrote.

Calls that raise are in the log too: the observations ahead of one that storage cannot bind
stay written, though their call raises. And a query with a filter that cannot be bound raises.
-/

namespace CnPropertyAgent

open Python Relational MarketObservationIngestionService

/-- **The series.** After any sequence of calls a query whose filters can be bound returns, of the
observations that the calls contributed, those that no later version replaced and that the query
selects, each once and in order. -/
theorem MarketObservationQueryService.series_is_log (calls : List MarketIngestCall)
    (query : MarketObservationQuery) :
    (∀ table, ∀ c ∈ calls,
      Contributes c (ingest c.provider table c.request c.fetch).result (writtenBy c)) ∧
    ∃ items, getMarketObservations (afterAll calls) query = whenBound query.filters items ∧
      (∀ o, o ∈ items ↔
        lastVersion (calls.flatMap writtenBy) o.observationId = some o ∧ query.Selects o) ∧
      items.Pairwise MarketObservation.Precedes := by
  refine ⟨fun table c _ => contributes table c, ?_⟩
  obtain ⟨items, read, mem, sorted⟩ := getMarketObservations_ok (readable_afterAll calls) query
  refine ⟨items, read, ?_, sorted⟩
  intro o
  rw [mem, mem_afterAll]
  rfl

/-! ### A refused batch leaves rows -/

section Samples

/-- An index of a district whose code is an unpaired surrogate, which no field check refuses. -/
def indexOfNoDistrict : MarketObservation :=
  ⟨{ sampleMarketFields (str "obs-2") (str "310000") 101 with geographyCode := some [0xD800] },
    by decide +kernel⟩

/-- A batch that storage refuses at its second observation. -/
def refusedBatch : MarketIngestCall :=
  ⟨str "Fake", sampleMarketRequest, .ok ⟨[indexPublished, indexOfNoDistrict]⟩⟩

def sampleSeriesQuery : MarketObservationQuery :=
  ⟨⟨str "310000", none, none, none, none, none⟩, by decide +kernel⟩

end Samples

/-- The call raises, so it delivered nothing, and still its first observation is read. -/
theorem MarketObservationQueryService.refused_batch_is_read :
    ¬ ∀ (calls : List MarketIngestCall) (query : MarketObservationQuery),
      ∃ items, getMarketObservations (afterAll calls) query = .ok items ∧
        (∀ o, o ∈ items ↔
          lastVersion (delivered calls) o.observationId = some o ∧ query.Selects o) ∧
        items.Pairwise MarketObservation.Precedes := by
  intro claim
  obtain ⟨items, read, mem, -⟩ := claim [refusedBatch] sampleSeriesQuery
  have raised : delivered [refusedBatch] = [] := by decide +kernel
  have stored : getMarketObservations (afterAll [refusedBatch]) sampleSeriesQuery = .ok [indexPublished] := by
    decide +kernel
  rw [stored] at read
  cases read
  have last := ((mem indexPublished).mp List.mem_cons_self).1
  rw [raised] at last
  cases last

/-- A correction that a refused call would have taken back. -/
example : (afterAll [⟨str "Fake", sampleMarketRequest, .ok ⟨[indexPublished]⟩⟩,
    ⟨str "Fake", sampleMarketRequest, .ok ⟨[indexCorrected]⟩⟩,
    ⟨str "Fake", sampleMarketRequest, .error (str "timeout")⟩]).rows =
      [MarketObservationRow.ofModel indexCorrected] := by
  decide +kernel

end CnPropertyAgent
