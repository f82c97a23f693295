import NodeStore.Main
import NodeStore.Proofs.Store.Visibility
import NodeStore.Proofs.Base64
import NodeStore.Proofs.Record.ChannelMap
import NodeStore.Proofs.Crypto.Fernet
import NodeStore.Proofs.Host
import NodeStore.Proofs.Vault
import NodeStore.Proofs.SecretStore.Runs
import NodeStore.Proofs.Node.Deployments
import NodeStore.Proofs.Node.Retries
import NodeStore.Proofs.Node.Convergence
import NodeStore.Proofs.Store.PeerMap
import NodeStore.Proofs.Json
import NodeStore.Proofs.Record.Bookkeeping
import NodeStore.Proofs.Store.Calls
import NodeStore.Proofs.Alike
import NodeStore.Proofs.Node.Script
import NodeStore.Proofs.Node.SettingRows
import NodeStore.Proofs.Node.SharedFile
import NodeStore.Proofs.Store.Twins
import NodeStore.Proofs.Node.Reopening
import NodeStore.Proofs.Node.SharedSeed
import NodeStore.Proofs.Node.FirstMigration
import NodeStore.Proofs.Node.Mirror
import NodeStore.Proofs.SecretStore.Readback
import NodeStore.Proofs.SecretStore.Restoration
import NodeStore.Proofs.SecretStore.Secrecy
import NodeStore.Proofs.Cli.Sessions
import NodeStore.Proofs.Passwords
import NodeStore.Proofs.Cli.NewPhrase
import NodeStore.Proofs.Store.ChannelIdMap
import NodeStore.Proofs.Store.Revocations
import NodeStore.Proofs.Cli.Revocation
import NodeStore.Proofs.Address
import NodeStore.Proofs.Store.MalformedRows
import NodeStore.Proofs.Cli.PeerList
import NodeStore.Proofs.SecretStore.BackupFailures
import NodeStore.Proofs.Store.Respelling
import NodeStore.Proofs.FileTree.Way
import NodeStore.Proofs.Record.File
import NodeStore.Proofs.Config
import NodeStore.Proofs.Logging
import NodeStore.Proofs.Identifiers
