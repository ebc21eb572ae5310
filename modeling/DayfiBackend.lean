import DayfiBackend.Infra.FrozenWallets
import DayfiBackend.Infra.Conservation
import DayfiBackend.Infra.CollectionFinality
import DayfiBackend.Infra.AmountAgreement
import DayfiBackend.Infra.PayoutRequests
import DayfiBackend.Infra.PayoutRefunds
import DayfiBackend.Infra.Settlements
import DayfiBackend.Infra.DepositCredit
import DayfiBackend.Infra.BulkCancellation
import DayfiBackend.Consumer.BalanceAgreement
import DayfiBackend.Consumer.CollectionInflows
import DayfiBackend.Consumer.PaymentRequests
import DayfiBackend.Consumer.PaymentVerification
import DayfiBackend.Consumer.DayEarnBalance
import DayfiBackend.Consumer.DayEarnInterest
import DayfiBackend.Consumer.FlutterwaveDeposits
import DayfiBackend.Consumer.InvestmentCaps
import DayfiBackend.Consumer.PaidSends
import DayfiBackend.Consumer.ProviderPayouts
import DayfiBackend.Consumer.SendRefunds
import DayfiBackend.Consumer.TransferLegs
import DayfiBackend.Infra.BillLocks
import DayfiBackend.Consumer.ProviderWebhooks
import DayfiBackend.Four.PhoneIdentity
import DayfiBackend.Four.OtpLimits
import DayfiBackend.Four.Authorizations
import DayfiBackend.Four.FailedIntents
import DayfiBackend.Flow.CancelledFlows
import DayfiBackend.Flow.DuePayments
import DayfiBackend.Flow.HeldFunds
import DayfiBackend.Four.MessageLog
import DayfiBackend.Four.TokenSeparation
import DayfiBackend.Four.RouteLimits
import DayfiBackend.Four.TelegramBindings
import DayfiBackend.Infra.TransferConservation
import DayfiBackend.Infra.MoneyAmount
import DayfiBackend.Infra.BulkCsvTables
import DayfiBackend.Infra.TransferReplays
import DayfiBackend.Infra.DepositAmounts
import DayfiBackend.Infra.TreasuryCoverage
import DayfiBackend.Infra.ReconciliationVerdict
import DayfiBackend.Infra.BulkAggregates
import DayfiBackend.Infra.TransferConcurrent
import DayfiBackend.Infra.CollectionRecovery
import DayfiBackend.Found.Documents
import DayfiBackend.Infra.AdminMetadata
import DayfiBackend.Four.PhoneSpellings
import DayfiBackend.Found.Calendar
import DayfiBackend.Flow.Recurrence
import DayfiBackend.Found.Conversions
import DayfiBackend.Consumer.SwapRounding
import DayfiBackend.Found.Regex
import DayfiBackend.Found.NumberText
import DayfiBackend.Found.CodeUnits
import DayfiBackend.Infra.Fingerprints
import DayfiBackend.Four.SendPhrases
import DayfiBackend.Four.AmountReaders
import DayfiBackend.Four.AmountOrders
import DayfiBackend.Four.AmountQuestions
import DayfiBackend.Found.JsonReader
import DayfiBackend.Four.TelegramWebApp
import DayfiBackend.Four.BankHints
import DayfiBackend.Four.YellowCardNetworks
import DayfiBackend.Flow.ScheduleValidation
import DayfiBackend.Flow.ScheduleInstructions
import DayfiBackend.Infra.Recipients
import DayfiBackend.Infra.RecipientScope
import DayfiBackend.Infra.SavedPayouts
import DayfiBackend.Found.Alike
import DayfiBackend.Infra.RecipientSecrets
import DayfiBackend.Found.Matched
import DayfiBackend.Consumer.EvmInflows
import DayfiBackend.Consumer.EvmMirror
import DayfiBackend.Found.Midway
import DayfiBackend.Infra.ApiKeys
import DayfiBackend.Infra.ApiKeyScope
import DayfiBackend.Infra.KeyRotation
import DayfiBackend.Infra.OnchainTransfers
import DayfiBackend.Infra.OnchainCredits
import DayfiBackend.Infra.OnchainRuns
import DayfiBackend.Four.Sessions
import DayfiBackend.Four.SessionLife
