import CnPropertyAgent.Config.CityProfile
import CnPropertyAgent.Providers.Lianjia.Recorded

/-!
Composition: from a city profile and the settings of a deployment to a provider.

Whatever would leave a provider that cannot deliver data raises `ProviderConfigurationError`.
-/

namespace CnPropertyAgent

open Python Lianjia

/-- Runtime settings supplied by the environment, the path as its text. -/
structure ProviderSettings where
  lianjiaTransactionSnapshotPath : Option Str

def snapshotPathEnvVar : Str := str "CN_PROPERTY_LIANJIA_TRANSACTION_SNAPSHOT_PATH"

/-- `RecordedLianjiaTransactionProvider(snapshot_path)`. -/
structure RecordedLianjiaTransactionProvider where
  snapshotPath : Str

section

variable [Runtime] (isFile : Str → Bool)

/-- `isFile` is `snapshot_path.is_file()`; an error is the message of the
`ProviderConfigurationError`. -/
def buildRecordedLianjiaTransactions (profile : CityProfile) (settings : ProviderSettings) :
    Except Str RecordedLianjiaTransactionProvider :=
  match settings.lianjiaTransactionSnapshotPath with
  | none => .error (str "city profile " ++ profile.cityCode.pyRepr ++ str " names the " ++
      lianjiaSource.pyRepr ++ str " transactions provider, which replays a recorded snapshot; set " ++
      snapshotPathEnvVar ++ str " to an existing snapshot file. Live acquisition is not implemented.")
  | some snapshotPath =>
      if isFile snapshotPath then .ok ⟨snapshotPath⟩
      else .error (snapshotPathEnvVar ++ str "=" ++ snapshotPath ++ str " is not an existing file")

/-- `_TRANSACTION_PROVIDER_BUILDERS`, its names sorted. -/
def transactionProviderBuilders :
    List (Str × (CityProfile → ProviderSettings → Except Str RecordedLianjiaTransactionProvider)) :=
  [(lianjiaSource, buildRecordedLianjiaTransactions isFile)]

/-- Constructs the transaction provider that the profile names. -/
def buildTransactionProvider (profile : CityProfile) (settings : ProviderSettings) :
    Except Str RecordedLianjiaTransactionProvider :=
  match profile.providers.transactions with
  | none => .error (str "city profile " ++ profile.cityCode.pyRepr ++ str " names no transactions provider")
  | some name =>
      match (transactionProviderBuilders isFile).find? fun builder => builder.1 = name with
      | none => .error (str "city profile " ++ profile.cityCode.pyRepr ++
          str " names unknown transactions provider " ++ name.pyRepr ++ str "; known providers: " ++
          Str.join (str ", ") ((transactionProviderBuilders isFile).map Prod.fst))
      | some builder => builder.2 profile settings

/-- **What is composed.** A provider exactly where the profile names the recorded one and the
settings lead to a file. -/
theorem buildTransactionProvider_ok_iff {profile : CityProfile} {settings : ProviderSettings}
    {provider : RecordedLianjiaTransactionProvider} :
    buildTransactionProvider isFile profile settings = .ok provider ↔
      profile.providers.transactions = some lianjiaSource ∧
        settings.lianjiaTransactionSnapshotPath = some provider.snapshotPath ∧
        isFile provider.snapshotPath = true := by
  unfold buildTransactionProvider
  cases profile.providers.transactions with
  | none => simp
  | some name =>
      by_cases known : lianjiaSource = name
      · subst known
        have found : (transactionProviderBuilders isFile).find? (fun builder => builder.1 = lianjiaSource) =
            some (lianjiaSource, buildRecordedLianjiaTransactions isFile) := by
          simp [transactionProviderBuilders]
        simp only [found, true_and]
        unfold buildRecordedLianjiaTransactions
        cases settings.lianjiaTransactionSnapshotPath with
        | none => simp
        | some path =>
            by_cases file : isFile path = true
            · obtain ⟨snapshotPath⟩ := provider
              simp only [file, ↓reduceIte, Except.ok.injEq, Option.some.injEq,
                RecordedLianjiaTransactionProvider.mk.injEq]
              constructor
              · rintro rfl
                exact ⟨rfl, file⟩
              · exact fun h => h.1
            · obtain ⟨snapshotPath⟩ := provider
              simp only [file, Bool.false_eq_true, ↓reduceIte, reduceCtorEq, Option.some.injEq, false_iff,
                not_and]
              rintro rfl
              exact file
      · have unknown : (transactionProviderBuilders isFile).find? (fun builder => builder.1 = name) = none := by
          simp [transactionProviderBuilders, known]
        simp only [unknown, reduceCtorEq, Option.some.injEq, false_iff, not_and]
        exact fun same => absurd same.symm known

end

end CnPropertyAgent
