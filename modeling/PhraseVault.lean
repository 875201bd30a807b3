import PhraseVault.Cipher.Sealing
import PhraseVault.Command.Invocation
import PhraseVault.Main
import PhraseVault.OwnerId
import PhraseVault.Proofs.Command.History
import PhraseVault.Proofs.Opening
import PhraseVault.Proofs.Packing
import PhraseVault.Proofs.Settings
import PhraseVault.Proofs.Vault.Acceptance
import PhraseVault.Proofs.Vault.Capacity
import PhraseVault.Proofs.Vault.Durability
import PhraseVault.Proofs.Vault.Freshness
import PhraseVault.Proofs.Vault.Layout
import PhraseVault.Proofs.Vault.Leftover
import PhraseVault.Proofs.Vault.Refusal
import PhraseVault.Proofs.Vault.Secrecy
import PhraseVault.Proofs.Vault.Spelling
import PhraseVault.Proofs.Vault.Storing
import PhraseVault.Proofs.Vault.Touching
import PhraseVault.Store.Either
import PhraseVault.Store.Faulty
import PhraseVault.Store.Foreign
import PhraseVault.Store.Records
import PhraseVault.Proofs.Vault.Hashing
