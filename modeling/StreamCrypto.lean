import StreamCrypto.Cipher.Lawful
import StreamCrypto.Proofs.Alike
import StreamCrypto.Proofs.Cipher.Alike
import StreamCrypto.Proofs.Cipher.Arrays
import StreamCrypto.Proofs.Cipher.Atomicity
import StreamCrypto.Proofs.Cipher.Buffer
import StreamCrypto.Proofs.Cipher.Calls
import StreamCrypto.Proofs.Cipher.DesKeys
import StreamCrypto.Proofs.Cipher.Ending
import StreamCrypto.Proofs.Cipher.Exchange
import StreamCrypto.Proofs.Cipher.Feed
import StreamCrypto.Proofs.Cipher.KeySchedule
import StreamCrypto.Proofs.Cipher.Leniency
import StreamCrypto.Proofs.Cipher.Lifecycle
import StreamCrypto.Proofs.Cipher.OneShot
import StreamCrypto.Proofs.Cipher.Rekeying
import StreamCrypto.Proofs.Cipher.Release
import StreamCrypto.Proofs.Cipher.Reporting
import StreamCrypto.Proofs.Cipher.RoundTrip
import StreamCrypto.Proofs.Cipher.Setup
import StreamCrypto.Proofs.Cipher.StreamMode
import StreamCrypto.Proofs.Cipher.Updates
import StreamCrypto.Proofs.Cipher.WeakKeys
import StreamCrypto.Proofs.Creation
import StreamCrypto.Proofs.Engine
import StreamCrypto.Proofs.Kdf.Agreement
import StreamCrypto.Proofs.Kdf.Alike
import StreamCrypto.Proofs.Kdf.Charge
import StreamCrypto.Proofs.Kdf.Contract
import StreamCrypto.Proofs.Kdf.Length
import StreamCrypto.Proofs.Kdf.Standard
import StreamCrypto.Proofs.Memory.Balance
import StreamCrypto.Proofs.Memory.Locking
import StreamCrypto.Proofs.Mode.Composition
import StreamCrypto.Proofs.Mode.Feedback
import StreamCrypto.Proofs.Mode.Inverse
import StreamCrypto.Proofs.Mode.Standard
import StreamCrypto.Proofs.Naming
import StreamCrypto.Proofs.Padding
import StreamCrypto.Proofs.Padding.Branchless
import StreamCrypto.Proofs.Session.Accounts
import StreamCrypto.Proofs.Session.Alike
import StreamCrypto.Proofs.Session.Answers
import StreamCrypto.Proofs.Session.Blinding
import StreamCrypto.Proofs.Session.Charges
import StreamCrypto.Proofs.Session.Contexts
import StreamCrypto.Proofs.Session.Couples
import StreamCrypto.Proofs.Session.Coverage
import StreamCrypto.Proofs.Session.Custody
import StreamCrypto.Proofs.Session.Digests
import StreamCrypto.Proofs.Session.Extending
import StreamCrypto.Proofs.Session.Framing
import StreamCrypto.Proofs.Session.Keeping
import StreamCrypto.Proofs.Session.Secrecy
import StreamCrypto.Proofs.Session.Starting
import StreamCrypto.Proofs.Session.Triple
import StreamCrypto.Proofs.Session.Turns
import StreamCrypto.Proofs.Version.Grammar
import StreamCrypto.Proofs.Version.Order
import StreamCrypto.Proofs.Version.Requirement
import StreamCrypto.Session.Run
import StreamCrypto.Text.Hex
