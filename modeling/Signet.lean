import Signet.FileTree
import Signet.Main
import Signet.Proofs.ConfigurationTexts
import Signet.Proofs.CurveSignatures
import Signet.Proofs.KeyCalls
import Signet.Proofs.PolicyUnions
import Signet.Proofs.Quotations
import Signet.Proofs.RepeatedKeys
import Signet.Proofs.RequestTexts
import Signet.Proofs.RsaSignatures
import Signet.Proofs.Scrubbing
import Signet.Proofs.SeedSecrecy
import Signet.Proofs.Startups
import Signet.Proofs.StoreRuns
import Signet.Proofs.Tokens
