import VaultShell.Catalog.Lemmas
import VaultShell.Router.Settings
import VaultShell.Main
import VaultShell.Path.Lemmas
import VaultShell.PromptLoop
import VaultShell.Router.Messages
import VaultShell.Vault.Basic
import VaultShell.Proofs.Shell.Overwriting
import VaultShell.Proofs.Shell.Stock
import VaultShell.Proofs.Shell.Tokens
import VaultShell.Proofs.Shell.WellFormed
import VaultShell.Proofs.Router.PlainShell
import VaultShell.Proofs.Shell.Output
import VaultShell.Proofs.Router.Authenticity
import VaultShell.Proofs.Router.Disclosure
import VaultShell.Proofs.Router.Transcript
import VaultShell.Proofs.Router.Isolation
import VaultShell.Proofs.Router.Dispatch
import VaultShell.Proofs.Shell.Clock
import VaultShell.Proofs.Shell.Looking
import VaultShell.Proofs.Shell.Relocation
import VaultShell.Proofs.Shell.Copies
import VaultShell.Proofs.PromptLoop.Interpreter
import VaultShell.Proofs.Router.Messages
import VaultShell.Proofs.Shell.Duplication
import VaultShell.Proofs.Shell.NamedRemoval
import VaultShell.Proofs.Shell.EmptyDirectories
import VaultShell.Proofs.Shell.MissingDirectories
import VaultShell.Proofs.Conversation.Wording
import VaultShell.Proofs.Vault.FlatOperations
import VaultShell.Proofs.Vault.DottedPaths
import VaultShell.Proofs.Vault.Independence
import VaultShell.Proofs.Shell.DirectoryChanges
import VaultShell.Proofs.Shell.Spelling
import VaultShell.Proofs.Shell.OneByOne
import VaultShell.Proofs.Path.CanonicalForm
import VaultShell.Proofs.Shell.Excerpts
import VaultShell.Proofs.Shell.Readers
import VaultShell.Proofs.Shell.Listings
import VaultShell.Proofs.Path.LastName
import VaultShell.Proofs.Vault.Subtrees
import VaultShell.Proofs.Shell.Tokenizing
import VaultShell.Proofs.Vault.Placeholders
