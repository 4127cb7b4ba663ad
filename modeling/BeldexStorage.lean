import BeldexStorage.Bmq.Regroup
import BeldexStorage.Bmq.Hex
import BeldexStorage.Bmq.Base64
import BeldexStorage.Bmq.Base32z
import BeldexStorage.Key
import BeldexStorage.UserPubkey
import BeldexStorage.Onion.ChannelCrypto
import BeldexStorage.Onion.Request
import BeldexStorage.Onion.Unwrap
import BeldexStorage.Onion.Response
import BeldexStorage.Onion.Cli
import BeldexStorage.Onion.Main
import BeldexStorage.RateLimiter.Bucket
import BeldexStorage.RateLimiter.Table
import BeldexStorage.RateLimiter.UnitTest
import BeldexStorage.Server.Main
